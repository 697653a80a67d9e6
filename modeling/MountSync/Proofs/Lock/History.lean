/-
The lock table tells its history.

Every operation is one step, so a history is a list of calls, each with whether it succeeded.  Of
such a list the table keeps one thing for each file: what the last call on it that succeeded has
left of its row.  A call that fails leaves every row alone, and a call on another file is as if it
had never been made.

So whoever gets the lock on a file after somebody else gets it from a call by which this client has
let go of it.
-/
import MountSync.Proofs.Lock
import Mathlib.Data.List.Induction

namespace MountSync

/-- What can be done to the lock on a file. -/
inductive LockAction
  | acquire
  | release
  | delete
  /-- Gives the lock back if the file is there, and up if it is gone. -/
  | dispose (present : Bool)
  deriving DecidableEq, Repr, Inhabited

/-- An operation on a lock table. -/
structure LockCall where
  action : LockAction
  file : String
  client : ClientId
  deriving DecidableEq, Repr, Inhabited

namespace LockCall

/-- The row of the file after a call that succeeded. -/
def row (c : LockCall) : Option (Option ClientId) :=
  match c.action with
  | .acquire => some (some c.client)
  | .release | .dispose true => some none
  | .delete | .dispose false => none

/-- The owner that a row names is the caller of an acquisition. -/
theorem join_row_eq_some_iff (c : LockCall) (client : ClientId) :
    c.row.join = some client ↔ c.action = .acquire ∧ c.client = client := by
  obtain ⟨action, file, caller⟩ := c
  cases action with
  | dispose present => cases present <;> simp [row]
  | _ => simp [row]

/-- There is a row exactly after a call that acquires the lock or gives it back. -/
theorem isSome_row_iff (c : LockCall) :
    c.row.isSome = true ↔ c.action = .acquire ∨ c.action = .release ∨ c.action = .dispose true := by
  obtain ⟨action, file, caller⟩ := c
  cases action with
  | dispose present => cases present <;> simp [row]
  | _ => simp [row]

end LockCall

namespace LockTable

/-- Carries out a call, and tells whether it succeeded. -/
def perform (t : LockTable) (c : LockCall) : LockTable × Bool :=
  match c.action with
  | .acquire => t.acquire c.file c.client
  | .release => t.release c.file c.client
  | .delete => t.delete c.file c.client
  | .dispose present => t.releaseOrDelete c.file c.client present

/-- The table after some calls. -/
def after (t : LockTable) (calls : List LockCall) : LockTable :=
  calls.foldl (fun t c => (t.perform c).1) t

/-- Some calls, each with whether it succeeded. -/
def history (t : LockTable) : List LockCall → List (LockCall × Bool)
  | [] => []
  | c :: rest => (c, (t.perform c).2) :: history (t.perform c).1 rest

/-- The last call on a file that succeeded. -/
def lastSuccess (file : String) (h : List (LockCall × Bool)) : Option LockCall :=
  ((h.filter fun x => decide (x.1.file = file) && x.2).map Prod.fst).getLast?

variable {t t' : LockTable} {file : String} {client : ClientId}

/-! ### One call

Success is decided by the row, and the row after a success by the call.  So two tables with the same
row answer alike and go on having the same row.
-/

theorem ownerOf_eq_some_iff :
    t.ownerOf file = some client ↔ t.rows.get? file = some (some client) := by
  unfold ownerOf
  cases t.rows.get? file with
  | none => simp
  | some owner => simp

/-- Letting go of a lock succeeds for the owner alone. -/
theorem perform_of_letGo (t : LockTable) {c : LockCall} (letsGo : c.action ≠ .acquire) :
    (t.perform c).2 = t.isOwner c.file c.client ∧
      (t.perform c).1.rows.get? c.file
        = if t.isOwner c.file c.client then c.row else t.rows.get? c.file := by
  obtain ⟨action, file, client⟩ := c
  have release : (t.release file client).2 = t.isOwner file client ∧
      (t.release file client).1.rows.get? file
        = if t.isOwner file client then some none else t.rows.get? file := by
    unfold LockTable.release
    cases t.isOwner file client <;> simp
  have delete : (t.delete file client).2 = t.isOwner file client ∧
      (t.delete file client).1.rows.get? file
        = if t.isOwner file client then none else t.rows.get? file := by
    unfold LockTable.delete
    cases t.isOwner file client <;> simp
  cases action with
  | acquire => exact absurd rfl letsGo
  | release => exact release
  | delete => exact delete
  | dispose present =>
      cases present with
      | true => exact release
      | false => exact delete

/-- The lock is granted to anybody while there is no owner, and to the owner. -/
theorem acquire_succeeds_iff :
    (t.acquire file client).2 = true ↔ ∀ owner, t.ownerOf file = some owner → owner = client := by
  unfold acquire
  cases owned : t.ownerOf file with
  | none => simp
  | some owner =>
      by_cases same : owner = client
      · simp [same]
      · simp [same]

/-- A call changes the row of its file if it succeeds, and no other row ever. -/
theorem get?_perform (t : LockTable) (c : LockCall) (file : String) :
    (t.perform c).1.rows.get? file
      = if c.file = file ∧ (t.perform c).2 = true then c.row else t.rows.get? file := by
  by_cases same : c.file = file
  · subst same
    simp only [true_and]
    by_cases acquires : c.action = .acquire
    · obtain ⟨action, file, client⟩ := c
      cases acquires
      show (t.acquire file client).1.rows.get? file
        = if (t.acquire file client).2 = true then _ else _
      cases granted : (t.acquire file client).2 with
      | true => exact ownerOf_eq_some_iff.1 (ownerOf_acquire_of_granted granted)
      | false => exact congrArg (Table.get? · file) (rows_acquire_of_refused granted)
    · obtain ⟨answer, row⟩ := t.perform_of_letGo acquires
      rw [row, answer]
  · rw [if_neg fun h => same h.1]
    have other : file ≠ c.file := Ne.symm same
    obtain ⟨action, name, client⟩ := c
    cases action with
    | acquire => exact t.get?_acquire_ne other client
    | release => exact t.get?_release_ne other client
    | delete => exact t.get?_delete_ne other client
    | dispose present =>
        cases present with
        | true => exact t.get?_release_ne other client
        | false => exact t.get?_delete_ne other client

/-- A call that fails leaves all rows as they are. -/
theorem rows_perform_of_refused {c : LockCall} (refused : (t.perform c).2 = false) :
    (t.perform c).1.rows = t.rows := by
  obtain ⟨action, name, caller⟩ := c
  have releases : (t.release name caller).2 = false → (t.release name caller).1.rows = t.rows := by
    intro refused
    unfold LockTable.release at refused ⊢
    split at refused
    · exact nomatch refused
    · rename_i other
      rw [if_neg other]
  have deletes : (t.delete name caller).2 = false → (t.delete name caller).1.rows = t.rows := by
    intro refused
    unfold LockTable.delete at refused ⊢
    split at refused
    · exact nomatch refused
    · rename_i other
      rw [if_neg other]
  cases action with
  | acquire => exact rows_acquire_of_refused refused
  | release => exact releases refused
  | delete => exact deletes refused
  | dispose present =>
      cases present with
      | true => exact releases refused
      | false => exact deletes refused

/-- Whether a call succeeds is decided by the row of its file. -/
theorem answer_congr {c : LockCall} (row : t.rows.get? c.file = t'.rows.get? c.file) :
    (t.perform c).2 = (t'.perform c).2 := by
  have owner : t.ownerOf c.file = t'.ownerOf c.file := congrArg Option.join row
  by_cases acquires : c.action = .acquire
  · obtain ⟨action, file, client⟩ := c
    cases acquires
    show (t.acquire file client).2 = (t'.acquire file client).2
    rw [Bool.eq_iff_iff, acquire_succeeds_iff, acquire_succeeds_iff, owner]
  · rw [(t.perform_of_letGo acquires).1, (t'.perform_of_letGo acquires).1, isOwner, isOwner, owner]

/-! ### Histories

A history grows at its end, and so the induction is on the last call.
-/

theorem after_append (t : LockTable) (calls more : List LockCall) :
    t.after (calls ++ more) = (t.after calls).after more := List.foldl_append

theorem history_append (calls more : List LockCall) :
    ∀ t : LockTable, t.history (calls ++ more)
      = t.history calls ++ (t.after calls).history more := by
  induction calls with
  | nil =>
      intro t
      rfl
  | cons c rest ih =>
      intro t
      rw [List.cons_append, history, history, ih, List.cons_append]
      rfl

theorem lastSuccess_concat (file : String) (h : List (LockCall × Bool)) (c : LockCall)
    (succeeded : Bool) :
    lastSuccess file (h ++ [(c, succeeded)])
      = if c.file = file ∧ succeeded = true then some c else lastSuccess file h := by
  unfold lastSuccess
  by_cases last : c.file = file ∧ succeeded = true
  · simp [List.filter_append, last]
  · have dropped : [(c, succeeded)].filter (fun x => decide (x.1.file = file) && x.2) = [] := by
      simpa using last
    rw [List.filter_append, dropped, List.append_nil, if_neg last]

/-- The row of a file is what the last call on it that succeeded has left of it. -/
theorem get?_after (calls : List LockCall) (file : String) :
    (empty.after calls).rows.get? file
      = (lastSuccess file (empty.history calls)).bind LockCall.row := by
  induction calls using List.reverseRecOn with
  | nil => rfl
  | append_singleton calls c ih =>
      rw [after_append, history_append]
      show ((empty.after calls).perform c).1.rows.get? file
        = (lastSuccess file
            (empty.history calls ++ [(c, ((empty.after calls).perform c).2)])).bind _
      rw [get?_perform, lastSuccess_concat]
      split
      · rfl
      · exact ih

/-- Leaving out all calls on other files changes neither the row of a file nor what the calls on it
answer. -/
theorem project (file : String) (calls : List LockCall) :
    ∀ {t t' : LockTable}, t.rows.get? file = t'.rows.get? file →
      (t.after calls).rows.get? file
          = (t'.after (calls.filter (·.file = file))).rows.get? file ∧
        (t.history calls).filter (·.1.file = file)
          = t'.history (calls.filter (·.file = file)) := by
  induction calls with
  | nil =>
      intro t t' row
      exact ⟨row, rfl⟩
  | cons c rest ih =>
      intro t t' row
      by_cases same : c.file = file
      · have answer : (t.perform c).2 = (t'.perform c).2 := answer_congr (same ▸ row)
        have next : (t.perform c).1.rows.get? file = (t'.perform c).1.rows.get? file := by
          rw [get?_perform, get?_perform, answer, row]
        obtain ⟨rows, answers⟩ := ih next
        have kept : (c :: rest).filter (·.file = file) = c :: rest.filter (·.file = file) := by
          simp [same]
        rw [kept]
        refine ⟨rows, ?_⟩
        rw [history, history, ← answers, answer]
        simp [same]
      · have next : (t.perform c).1.rows.get? file = t'.rows.get? file := by
          rw [get?_perform, if_neg fun h => same h.1, row]
        obtain ⟨rows, answers⟩ := ih next
        have dropped : (c :: rest).filter (·.file = file) = rest.filter (·.file = file) := by
          simp [same]
        rw [dropped]
        refine ⟨rows, ?_⟩
        rw [history, ← answers]
        simp [same]

/-! ### From one owner to the next

An owner who has been owner and is none any more has made the call that did it.
-/

/-- Whether a client lets go of the lock on a file in some calls. -/
def LetsGo (t : LockTable) (file : String) (client : ClientId) (calls : List LockCall) : Prop :=
  ∃ before c rest, calls = before ++ c :: rest ∧ c.file = file ∧ c.client = client ∧
    c.action ≠ .acquire ∧ ((t.after before).perform c).2 = true

/-- Only the owner of a file makes an end of owning it. -/
theorem perform_of_owner (owned : t.ownerOf file = some client) (c : LockCall) :
    (t.perform c).1.ownerOf file = some client ∨
      c.file = file ∧ c.client = client ∧ c.action ≠ .acquire ∧ (t.perform c).2 = true := by
  have row := t.get?_perform c file
  by_cases changes : c.file = file ∧ (t.perform c).2 = true
  · obtain ⟨rfl, succeeds⟩ := changes
    by_cases acquires : c.action = .acquire
    · left
      obtain ⟨action, file, caller⟩ := c
      cases acquires
      have same : client = caller := acquire_succeeds_iff.1 succeeds client owned
      rw [if_pos ⟨rfl, succeeds⟩] at row
      rw [ownerOf_eq_some_iff, row, same]
      rfl
    · right
      rw [(t.perform_of_letGo acquires).1, isOwner_iff, owned] at succeeds
      have caller : client = c.client := Option.some.inj succeeds
      refine ⟨rfl, caller.symm, acquires, ?_⟩
      rw [(t.perform_of_letGo acquires).1, isOwner_iff, owned, caller]
  · rw [if_neg changes] at row
    left
    rw [ownerOf_eq_some_iff, row]
    exact ownerOf_eq_some_iff.1 owned

/-- Who does not own a file any more has let go of its lock. -/
theorem letsGo_of_owner (calls : List LockCall) :
    ∀ {t : LockTable}, t.ownerOf file = some client →
      (t.after calls).ownerOf file ≠ some client → t.LetsGo file client calls := by
  induction calls with
  | nil =>
      intro t owned lost
      exact absurd owned lost
  | cons c rest ih =>
      intro t owned lost
      rcases perform_of_owner owned c with still | ⟨same, caller, letsGo, succeeds⟩
      · obtain ⟨before, d, later, rfl, done⟩ := ih still lost
        exact ⟨c :: before, d, later, rfl, done⟩
      · exact ⟨[], c, rest, rfl, same, caller, letsGo, succeeds⟩

/-- **A lock table is told by its history.**

After any calls on a fresh table the owner of a file is the client whose acquisition was the last
call on it that succeeded, and there is a row exactly if this call was an acquisition or one that
keeps the row.  A call that fails changes no row.  The calls on other files can be left out.  And
between two acquisitions of a file by different clients the first one lets go of its lock. -/
theorem history_tells (calls : List LockCall) (file : String) :
    let t := empty.after calls
    let last := lastSuccess file (empty.history calls)
    (∀ client, t.ownerOf file = some client ↔
      ∃ c, last = some c ∧ c.action = .acquire ∧ c.client = client) ∧
    (t.contains file = true ↔ ∃ c, last = some c ∧
      (c.action = .acquire ∨ c.action = .release ∨ c.action = .dispose true)) ∧
    (∀ client, t.isOwner file client = true ↔ t.ownerOf file = some client) ∧
    (∀ c, (t.perform c).2 = false → (t.perform c).1.rows = t.rows) ∧
    (t.rows.get? file = (empty.after (calls.filter (·.file = file))).rows.get? file ∧
      (empty.history calls).filter (·.1.file = file)
        = empty.history (calls.filter (·.file = file))) ∧
    ∀ before a between b rest, calls = before ++ a :: between ++ b :: rest →
      a.file = file → b.file = file → a.action = .acquire → b.action = .acquire →
      ((empty.after before).perform a).2 = true →
      ((empty.after (before ++ a :: between)).perform b).2 = true → a.client ≠ b.client →
      (empty.after (before ++ [a])).LetsGo file a.client between := by
  have row := get?_after calls file
  refine ⟨?_, ?_, fun client => isOwner_iff, fun c => rows_perform_of_refused,
    project file calls rfl, ?_⟩
  · intro client
    rw [ownerOf, row]
    cases lastSuccess file (empty.history calls) with
    | none => simp
    | some c => simpa using c.join_row_eq_some_iff client
  · rw [contains, Table.contains, row]
    cases lastSuccess file (empty.history calls) with
    | none => simp
    | some c => simpa using c.isSome_row_iff
  · rintro before ⟨_, _, first⟩ between ⟨_, _, second⟩ rest - rfl same rfl rfl granted granted'
      different
    cases same
    rename_i file
    have owned : (empty.after (before ++ [⟨.acquire, file, first⟩])).ownerOf file = some first := by
      rw [after_append]
      exact ownerOf_acquire_of_granted granted
    refine letsGo_of_owner between owned fun still => different ?_
    rw [← after_append, List.append_assoc, List.singleton_append] at still
    exact acquire_succeeds_iff.1 granted' first still

/-- Alice locks a file and gives it back, bob is refused and then granted it, and another file is
locked in between. -/
def handedOver : List LockCall :=
  [⟨.acquire, "f", "alice"⟩, ⟨.acquire, "f", "bob"⟩, ⟨.acquire, "g", "carol"⟩,
    ⟨.dispose true, "f", "alice"⟩, ⟨.acquire, "f", "bob"⟩]

theorem handedOver_tells :
    (empty.history handedOver).map Prod.snd = [true, false, true, true, true] ∧
    (empty.after handedOver).ownerOf "f" = some "bob" ∧
    (empty.after (handedOver.take 1)).LetsGo "f" "alice" ((handedOver.drop 1).take 3) := by
  obtain ⟨owner, -, -, -, -, between⟩ := history_tells handedOver "f"
  refine ⟨by decide, (owner "bob").2 ⟨⟨.acquire, "f", "bob"⟩, by decide, rfl, rfl⟩, ?_⟩
  exact between [] ⟨.acquire, "f", "alice"⟩ _ ⟨.acquire, "f", "bob"⟩ [] rfl rfl rfl rfl rfl
    (by decide) (by decide) (by decide)

end LockTable

end MountSync
