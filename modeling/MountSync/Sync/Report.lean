/-
What became of the entries of a pass.
-/
import MountSync.Failure

namespace MountSync

/-- What became of one entry. -/
inductive Booking
  | fetched
  | stored
  | deleted
  /-- In step already, or passed over for a reason that is in the normal course of things. -/
  | skipped
  /-- Left to a person. -/
  | anomaly
  | failed
  deriving DecidableEq, Repr, Inhabited

/-- The entries of a pass by what became of them, in the order of the pass. -/
structure Report where
  fetched : List String
  stored : List String
  deleted : List String
  skipped : List String
  anomalies : List String
  failed : List String
  deriving DecidableEq, Repr, Inhabited

namespace Report

def empty : Report := ⟨[], [], [], [], [], []⟩

/-- Notes what became of an entry. -/
def book (r : Report) (name : String) : Booking → Report
  | .fetched => { r with fetched := r.fetched ++ [name] }
  | .stored => { r with stored := r.stored ++ [name] }
  | .deleted => { r with deleted := r.deleted ++ [name] }
  | .skipped => { r with skipped := r.skipped ++ [name] }
  | .anomaly => { r with anomalies := r.anomalies ++ [name] }
  | .failed => { r with failed := r.failed ++ [name] }

/-- Whether a pass changed nothing and met nothing that needs looking at. -/
def isQuiet (r : Report) : Bool :=
  r.fetched.isEmpty && r.stored.isEmpty && r.deleted.isEmpty && r.anomalies.isEmpty
    && r.failed.isEmpty

/-- A pass was quiet exactly if no entry was moved, left to a person, or failed. -/
theorem isQuiet_iff (r : Report) :
    r.isQuiet ↔ r.fetched = [] ∧ r.stored = [] ∧ r.deleted = [] ∧ r.anomalies = []
      ∧ r.failed = [] := by
  simp [isQuiet, and_assoc]

end Report

/-- What to book for a call.  Failures in the normal course of things, and files that are not
there, pass the entry over. -/
def Booking.ofResult {α : Type} (done : Booking) : Except Failure α → Booking
  | .ok _ => done
  | .error failure =>
    if failure.isExpected || failure.kind = .notFound then .skipped else .failed

end MountSync
