/-
Moments, and how long a call may take.

Two clocks matter.  The deadline of a call is an instant of a clock that only runs forward,
counted in milliseconds; the time on a file is read off the calendar, in whole seconds.  A
moment holds a reading of both.
-/
import MountSync.Failure

namespace MountSync

/-- A reading of the clock and of the calendar. -/
structure Moment where
  instant : Nat
  calendar : UnixTime
  deriving DecidableEq, Repr, Inhabited

/-- When a call has to be over, fixed as the call arrives. -/
structure Deadline where
  expiry : Nat
  deriving DecidableEq, Repr, Inhabited

namespace Deadline

/-- The deadline of a call that arrives `now` and may take `timeout`.  With no time at all it
has already passed. -/
def after (now : Nat) (timeout : Nat) : Deadline := ⟨now + timeout⟩

/-- A deadline has passed from its own instant on. -/
def isExpired (d : Deadline) (now : Nat) : Bool := d.expiry ≤ now

/-- How much time is left. -/
def remaining (d : Deadline) (now : Nat) : Nat := d.expiry - now

/-- Refuses once the deadline has passed. -/
def check (d : Deadline) (now : Nat) : Except Failure Unit :=
  if d.isExpired now then .error .deadlineExceeded else .ok ()

theorem isExpired_after (now timeout later : Nat) :
    (after now timeout).isExpired later = decide (now + timeout ≤ later) := rfl

theorem isExpired_iff_remaining (d : Deadline) (now : Nat) :
    d.isExpired now ↔ d.remaining now = 0 := by
  simp only [isExpired, remaining, decide_eq_true_eq]
  omega

end Deadline

end MountSync
