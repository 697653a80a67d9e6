/-
The counters of a lock table balance.

Every call adds one to the counter that its outcome is for, or to none.  A lock that is granted is
given back, given up, still held, or was granted to its owner once more; so these four add up to the
grants, at any time.  One call keeps the balance: it changes the row of its own file only, and that
row has an owner before or after the call exactly if the counters say so.

The rows that are there are those of the files that were acquired and have not gone since.
-/
import MountSync.Proofs.Lock.History
import Mathlib.Data.Finset.Card
import Mathlib.Data.Finset.Dedup

namespace MountSync

/-! ### Counting rows

A table has one row for each key, so a count over its rows is a count over its keys.
-/

theorem Table.countP_lookup {κ α : Type} [DecidableEq κ] (p : α → Bool) (k : κ)
    (rows : List (κ × α)) (distinct : (rows.map Prod.fst).Nodup) :
    rows.countP (fun row => p row.2)
      = (rows.filter fun row => row.1 ≠ k).countP (fun row => p row.2)
        + if (lookup k rows).any p then 1 else 0 := by
  induction rows with
  | nil => rfl
  | cons row rest ih =>
      obtain ⟨new, distinct⟩ := List.nodup_cons.1 distinct
      by_cases same : row.1 = k
      · subst same
        have others : rest.filter (fun other => other.1 ≠ row.1) = rest := by
          refine List.filter_eq_self.2 fun other mem => ?_
          simpa using fun same : other.1 = row.1 => new (same ▸ List.mem_map_of_mem mem)
        rw [List.filter_cons_of_neg (by simp), others, List.countP_cons, lookup, if_pos rfl]
        rfl
      · rw [List.filter_cons_of_pos (by simpa using same), List.countP_cons, List.countP_cons,
          ih distinct, lookup, if_neg same]
        omega

/-! ### What a call counts

A call has an outcome, and the outcome names the counter.  So the counters can be told from the
history, and need not be followed through the table.
-/

/-- The counters of a lock table. -/
inductive LockCounter
  | granted
  | denied
  | released
  | deleted
  deriving DecidableEq, Repr, Inhabited

/-- The counter to which a call adds. -/
def LockCall.counter? (c : LockCall) (succeeded : Bool) : Option LockCounter :=
  match c.action, succeeded with
  | .acquire, true => some .granted
  | .acquire, false => some .denied
  | .release, true | .dispose true, true => some .released
  | .delete, true | .dispose false, true => some .deleted
  | _, false => none

theorem LockCall.counter?_of_acquire {c : LockCall} (acquires : c.action = .acquire)
    (succeeded : Bool) : c.counter? succeeded = some (if succeeded then .granted else .denied) := by
  unfold counter?
  rw [acquires]
  cases succeeded <;> rfl

theorem LockCall.counter?_eq_denied_iff {c : LockCall} {succeeded : Bool} :
    c.counter? succeeded = some .denied ↔ c.action = .acquire ∧ succeeded = false := by
  obtain ⟨action, file, client⟩ := c
  cases action with
  | dispose present => cases present <;> cases succeeded <;> simp [counter?]
  | _ => cases succeeded <;> simp [counter?]

namespace LockTable

variable {t : LockTable} {again : Nat}

/-- What a call can do to a table, and answer. -/
inductive Outcome (t : LockTable) (c : LockCall) : LockTable × Bool → Prop
  | grant (acquires : c.action = .acquire) (free : t.ownerOf c.file = none) :
      Outcome t c ({ t with
        rows := t.rows.insert c.file (some c.client), granted := t.granted + 1 }, true)
  | again (acquires : c.action = .acquire) (owner : t.isOwner c.file c.client = true) :
      Outcome t c ({ t with granted := t.granted + 1 }, true)
  | deny (acquires : c.action = .acquire) (other : t.isOwner c.file c.client = false) :
      Outcome t c ({ t with denied := t.denied + 1 }, false)
  | release (counts : c.counter? true = some .released)
      (owner : t.isOwner c.file c.client = true) :
      Outcome t c ({ t with
        rows := t.rows.insert c.file none, released := t.released + 1 }, true)
  | delete (counts : c.counter? true = some .deleted)
      (owner : t.isOwner c.file c.client = true) :
      Outcome t c ({ t with rows := t.rows.erase c.file, deleted := t.deleted + 1 }, true)
  | refuse (counts : c.counter? false = none) (other : t.isOwner c.file c.client = false) :
      Outcome t c (t, false)

theorem outcome_release {c : LockCall} (counts : c.counter? true = some .released)
    (refuses : c.counter? false = none) : Outcome t c (t.release c.file c.client) := by
  unfold LockTable.release
  cases owner : t.isOwner c.file c.client with
  | true => exact .release counts owner
  | false => exact .refuse refuses owner

theorem outcome_delete {c : LockCall} (counts : c.counter? true = some .deleted)
    (refuses : c.counter? false = none) : Outcome t c (t.delete c.file c.client) := by
  unfold LockTable.delete
  cases owner : t.isOwner c.file c.client with
  | true => exact .delete counts owner
  | false => exact .refuse refuses owner

theorem outcome_perform (t : LockTable) (c : LockCall) : Outcome t c (t.perform c) := by
  obtain ⟨action, file, client⟩ := c
  cases action with
  | acquire =>
      show Outcome t _ (t.acquire file client)
      unfold acquire
      cases holder : t.ownerOf file with
      | none => exact .grant rfl holder
      | some owner =>
          dsimp only
          split
          · rename_i same
            exact .again rfl (isOwner_iff.2 (same ▸ holder))
          · rename_i other
            exact .deny rfl (by simpa [isOwner, holder] using other)
  | release => exact outcome_release rfl rfl
  | delete => exact outcome_delete rfl rfl
  | dispose present =>
      cases present with
      | true => exact outcome_release rfl rfl
      | false => exact outcome_delete rfl rfl

def counter (t : LockTable) : LockCounter → Nat
  | .granted => t.granted
  | .denied => t.denied
  | .released => t.released
  | .deleted => t.deleted

/-- A call is counted once, and nowhere else. -/
theorem counter_perform (t : LockTable) (c : LockCall) (k : LockCounter) :
    (t.perform c).1.counter k
      = t.counter k + if c.counter? (t.perform c).2 = some k then 1 else 0 := by
  have outcome := t.outcome_perform c
  generalize t.perform c = r at outcome ⊢
  cases outcome with
  | grant acquires _ | again acquires _ | deny acquires _ =>
      rw [LockCall.counter?_of_acquire acquires]
      cases k <;> rfl
  | release counts _ | delete counts _ | refuse counts _ =>
      rw [counts]
      cases k <;> rfl

/-- A counter says how many calls had its outcome. -/
theorem counter_after (k : LockCounter) (calls : List LockCall) :
    ∀ t : LockTable, (t.after calls).counter k
      = t.counter k + (t.history calls).countP fun x => x.1.counter? x.2 = some k := by
  induction calls with
  | nil => exact fun t => rfl
  | cons c rest ih =>
      intro t
      show ((t.perform c).1.after rest).counter k = _
      rw [ih, counter_perform, history, List.countP_cons]
      simp only [decide_eq_true_eq]
      omega

/-! ### What becomes of a grant

The balance is an equation that each call keeps.  The rows of other files do not move, so it comes
down to the one row of the call.
-/

/-- How many rows have an owner. -/
def owned (t : LockTable) : Nat := t.rows.rows.countP fun row => row.2.isSome

/-- How many rows of other files have an owner. -/
def ownedBeside (t : LockTable) (file : String) : Nat :=
  (t.rows.erase file).rows.countP fun row => row.2.isSome

theorem owned_eq (t : LockTable) (file : String) :
    t.owned = t.ownedBeside file + if (t.ownerOf file).isSome then 1 else 0 := by
  have count := Table.countP_lookup Option.isSome file t.rows.rows t.rows.distinct
  have owner : (Table.lookup file t.rows.rows).any Option.isSome = (t.ownerOf file).isSome := by
    show (t.rows.get? file).any Option.isSome = (t.rows.get? file).join.isSome
    cases t.rows.get? file with
    | none => rfl
    | some owner => rfl
  rw [owner] at count
  exact count

/-- The locks that were granted are those that were given back, given up, are held, or were granted
to their owners, which happened `again` times. -/
def Balanced (t : LockTable) (again : Nat) : Prop :=
  t.granted = t.released + t.deleted + t.owned + again

/-- How often, in some calls, the lock on a file is granted to its owner. -/
def regrants (t : LockTable) : List LockCall → Nat
  | [] => 0
  | c :: rest =>
    (if c.action = .acquire ∧ t.isOwner c.file c.client = true then 1 else 0)
      + regrants (t.perform c).1 rest

theorem isOwner_of_free {file : String} {client : ClientId} (free : t.ownerOf file = none) :
    t.isOwner file client = false := by
  rw [isOwner, free]
  rfl

theorem isSome_ownerOf_of_owner {file : String} {client : ClientId}
    (owner : t.isOwner file client = true) : (t.ownerOf file).isSome = true := by
  rw [isOwner_iff.1 owner]
  rfl

theorem Balanced.perform (h : t.Balanced again) (c : LockCall) :
    (t.perform c).1.Balanced
      (again + if c.action = .acquire ∧ t.isOwner c.file c.client = true then 1 else 0) := by
  unfold Balanced at h ⊢
  -- Only the row of the call's own file can change; the rows beside it are counted apart.
  have before := t.owned_eq c.file
  have letsGo {k : LockCounter} (counts : c.counter? true = some k) (other : k ≠ .granted) :
      c.action ≠ .acquire := by
    intro acquires
    rw [LockCall.counter?_of_acquire acquires] at counts
    exact other (Option.some.inj counts).symm
  have outcome := t.outcome_perform c
  generalize t.perform c = r at outcome ⊢
  cases outcome with
  | grant acquires free =>
      have after : owned { t with
          rows := t.rows.insert c.file (some c.client), granted := t.granted + 1 }
            = t.ownedBeside c.file + 1 := List.countP_cons_of_pos rfl
      rw [free, Option.isSome_none, if_neg Bool.false_ne_true] at before
      rw [after, if_neg (by rw [isOwner_of_free free]; exact nofun)]
      dsimp only
      omega
  | again acquires owner =>
      rw [if_pos ⟨acquires, owner⟩]
      show t.granted + 1 = t.released + t.deleted + t.owned + _
      omega
  | deny acquires other =>
      rw [other, if_neg (by exact nofun)]
      exact h
  | release counts owner =>
      have after : owned { t with
          rows := t.rows.insert c.file none, released := t.released + 1 }
            = t.ownedBeside c.file := List.countP_cons_of_neg nofun
      rw [if_pos (isSome_ownerOf_of_owner owner)] at before
      rw [after, if_neg fun h => letsGo counts nofun h.1]
      dsimp only
      omega
  | delete counts owner =>
      have after : owned { t with
          rows := t.rows.erase c.file, deleted := t.deleted + 1 }
            = t.ownedBeside c.file := rfl
      rw [if_pos (isSome_ownerOf_of_owner owner)] at before
      rw [after, if_neg fun h => letsGo counts nofun h.1]
      dsimp only
      omega
  | refuse counts other =>
      rw [other, if_neg (by exact nofun)]
      exact h

theorem Balanced.after (calls : List LockCall) :
    ∀ {t : LockTable} {again : Nat}, t.Balanced again →
      (t.after calls).Balanced (again + t.regrants calls) := by
  induction calls with
  | nil => exact fun h => h
  | cons c rest ih =>
      intro t again h
      have next := ih (h.perform c)
      rwa [Nat.add_assoc] at next

/-! ### The rows that are there -/

/-- The files of which the lock was acquired at least once. -/
def acquired (h : List (LockCall × Bool)) : Finset String :=
  ((h.filter fun x => x.1.action = .acquire && x.2).map fun x => x.1.file).toFinset

theorem mem_acquired_iff {h : List (LockCall × Bool)} {file : String} :
    file ∈ acquired h ↔ ∃ c, (c, true) ∈ h ∧ c.action = .acquire ∧ c.file = file := by
  simp [acquired, and_assoc]

/-- A file has a row only if its lock was acquired. -/
theorem mem_acquired_of_row (calls : List LockCall) (file : String)
    (row : ((empty.after calls).rows.get? file).isSome = true) :
    file ∈ acquired (empty.history calls) := by
  induction calls using List.reverseRecOn with
  | nil => exact nomatch row
  | append_singleton calls c ih =>
      have earlier (h : ((empty.after calls).rows.get? file).isSome = true) :
          file ∈ acquired (empty.history (calls ++ [c])) := by
        obtain ⟨d, mem, acquires, is⟩ := mem_acquired_iff.1 (ih h)
        rw [history_append]
        exact mem_acquired_iff.2 ⟨d, List.mem_append_left _ mem, acquires, is⟩
      rw [after_append] at row
      have step := (empty.after calls).get?_perform c file
      by_cases changes : c.file = file ∧ ((empty.after calls).perform c).2 = true
      · obtain ⟨rfl, succeeds⟩ := changes
        by_cases acquires : c.action = .acquire
        · refine mem_acquired_iff.2 ⟨c, ?_, acquires, rfl⟩
          rw [history_append]
          refine List.mem_append_right _ (List.mem_singleton.2 ?_)
          rw [← succeeds]
        · -- Who lets go of a lock owns it, so the row was there before.
          rw [(perform_of_letGo _ acquires).1, isOwner_iff, ownerOf_eq_some_iff] at succeeds
          exact earlier (by rw [succeeds]; rfl)
      · rw [if_neg changes] at step
        exact earlier (step ▸ row)

theorem exists_lastSuccess {h : List (LockCall × Bool)} {c : LockCall} (mem : (c, true) ∈ h) :
    ∃ last, lastSuccess c.file h = some last := by
  have kept : (c, true) ∈ h.filter fun x => decide (x.1.file = c.file) && x.2 :=
    List.mem_filter.2 ⟨mem, by simp⟩
  exact ⟨_, List.getLast?_eq_some_getLast (List.ne_nil_of_mem (List.mem_map_of_mem kept))⟩

/-- There are as many rows as there are files that were acquired and have not gone since. -/
theorem size_after (calls : List LockCall) :
    let h := empty.history calls
    (empty.after calls).size
      = ((acquired h).filter fun file => ∀ c ∈ lastSuccess file h,
          c.action ≠ .delete ∧ c.action ≠ .dispose false).card := by
  intro h
  have keys : (empty.after calls).size = (empty.after calls).rows.keys.toFinset.card := by
    have distinct : (empty.after calls).rows.keys.Nodup := (empty.after calls).rows.distinct
    rw [List.toFinset_card_of_nodup distinct, Table.keys, List.length_map]
    rfl
  rw [keys]
  congr 1
  ext file
  have row := get?_after calls file
  rw [List.mem_toFinset, Table.mem_keys_iff, Finset.mem_filter]
  constructor
  · intro there
    refine ⟨mem_acquired_of_row calls file there, fun c last => ?_⟩
    rw [row, Option.mem_def.1 last] at there
    rcases c.isSome_row_iff.1 there with is | is | is <;> rw [is] <;> decide
  · rintro ⟨mem, stays⟩
    obtain ⟨d, done, -, rfl⟩ := mem_acquired_iff.1 mem
    obtain ⟨⟨action, name, client⟩, last⟩ := exists_lastSuccess done
    obtain ⟨notDeleted, notGone⟩ := stays _ last
    rw [row, last]
    refine (LockCall.isSome_row_iff _).2 ?_
    cases action with
    | acquire => exact .inl rfl
    | release => exact .inr (.inl rfl)
    | delete => exact absurd rfl notDeleted
    | dispose present =>
        cases present with
        | true => exact .inr (.inr rfl)
        | false => exact absurd rfl notGone

/-- **The counters of a lock table balance.**

Whatever was done to a fresh table, each lock that was granted was given back or given up, or is
held, or had its owner already.  The refusals are those that were told, and the rows are those of
the files that were acquired and have not gone since.  So no more locks are let go than were
granted, and no more are held than are left of these. -/
theorem counters_balance (calls : List LockCall) :
    let t := empty.after calls
    let h := empty.history calls
    let s := t.stats
    s.granted = s.released + s.deleted + t.owned + empty.regrants calls ∧
    s.denied = (h.countP fun x => x.1.action = .acquire && !x.2) ∧
    s.entries = ((acquired h).filter fun file => ∀ c ∈ lastSuccess file h,
      c.action ≠ .delete ∧ c.action ≠ .dispose false).card ∧
    s.released + s.deleted ≤ s.granted ∧
    t.owned ≤ s.granted - s.released - s.deleted := by
  intro t h s
  have fresh : empty.Balanced 0 := rfl
  have balance : s.granted = s.released + s.deleted + t.owned + (0 + empty.regrants calls) :=
    fresh.after calls
  have denied : s.denied = 0 + h.countP fun x => x.1.counter? x.2 = some .denied :=
    counter_after .denied calls empty
  refine ⟨by omega, ?_, size_after calls, by omega, by omega⟩
  rw [denied, Nat.zero_add]
  refine List.countP_congr fun x _ => ?_
  rw [decide_eq_true_iff, LockCall.counter?_eq_denied_iff, Bool.and_eq_true, decide_eq_true_iff,
    Bool.not_eq_true']

/-- One grant is given up, and one was for the owner. -/
example :
    let calls : List LockCall := [⟨.acquire, "f", "alice"⟩, ⟨.acquire, "f", "alice"⟩,
      ⟨.acquire, "f", "bob"⟩, ⟨.dispose false, "f", "alice"⟩]
    (empty.after calls).stats = ⟨2, 1, 0, 1, 0⟩ ∧ empty.regrants calls = 1 := by decide

end LockTable

end MountSync
