/-
Finite tables with one row for each key.

Rows are kept in a list, in the order in which they came; looking at a table goes through
`get?` and `keys`, and what is proved of an operation is what it does to those two.
-/

namespace MountSync

/-- Rows under distinct keys. -/
@[ext] structure Table (κ α : Type) [DecidableEq κ] where
  rows : List (κ × α)
  distinct : (rows.map Prod.fst).Nodup

namespace Table

variable {κ α : Type} [DecidableEq κ]

def empty : Table κ α := ⟨[], by simp⟩

instance : Inhabited (Table κ α) := ⟨empty⟩

instance [DecidableEq α] : DecidableEq (Table κ α) := fun s t =>
  decidable_of_iff (s.rows = t.rows) ⟨Table.ext, congrArg rows⟩

instance [Repr κ] [Repr α] : Repr (Table κ α) := ⟨fun t => reprPrec t.rows⟩

/-- The value in a list of rows. -/
def lookup (k : κ) : List (κ × α) → Option α
  | [] => none
  | (j, a) :: rest => if j = k then some a else lookup k rest

/-- The value under a key. -/
def get? (t : Table κ α) (k : κ) : Option α := lookup k t.rows

/-- Whether there is a row for a key. -/
def contains (t : Table κ α) (k : κ) : Bool := (t.get? k).isSome

def keys (t : Table κ α) : List κ := t.rows.map Prod.fst

def size (t : Table κ α) : Nat := t.rows.length

/-- Drops the row of a key, if there is one. -/
def erase (t : Table κ α) (k : κ) : Table κ α where
  rows := t.rows.filter fun row => row.1 ≠ k
  distinct := t.distinct.sublist (List.filter_sublist.map Prod.fst)

theorem not_mem_keys_erase (t : Table κ α) (k : κ) : k ∉ (t.erase k).keys := by
  simp [keys, erase]

/-- Keeps the rows whose keys satisfy `p`. -/
def keep (t : Table κ α) (p : κ → Bool) : Table κ α where
  rows := t.rows.filter fun row => p row.1
  distinct := t.distinct.sublist (List.filter_sublist.map Prod.fst)

/-- Puts a value under a key, in place of the one that was there. -/
def insert (t : Table κ α) (k : κ) (a : α) : Table κ α where
  rows := (k, a) :: (t.erase k).rows
  distinct := by
    have h := t.not_mem_keys_erase k
    simp only [keys] at h
    simpa only [List.map_cons, List.nodup_cons] using ⟨h, (t.erase k).distinct⟩

/-- A table of the given rows; of two under one key the later one counts. -/
def ofList (rows : List (κ × α)) : Table κ α :=
  rows.foldl (fun t row => t.insert row.1 row.2) empty

/-- Gives every row the value that `f` makes of it. -/
def map (t : Table κ α) (f : κ → α → α) : Table κ α where
  rows := t.rows.map fun row => (row.1, f row.1 row.2)
  distinct := by
    have h : (t.rows.map fun row => (row.1, f row.1 row.2)).map Prod.fst
        = t.rows.map Prod.fst := by simp
    rw [h]
    exact t.distinct

/-! ### What the operations do to `get?` -/

/-- A key that is left out has no value any more, and every other has the value that it had. -/
theorem lookup_filter (p : κ → Bool) (k : κ) (rows : List (κ × α)) :
    lookup k (rows.filter fun row => p row.1) = if p k then lookup k rows else none := by
  induction rows with
  | nil => simp [lookup]
  | cons row rest ih =>
    by_cases hp : p row.1
    · by_cases hk : row.1 = k
      · subst hk
        simp [lookup, hp]
      · simpa [hp, lookup, hk] using ih
    · by_cases hk : row.1 = k
      · subst hk
        simpa [hp] using ih
      · simpa [hp, lookup, hk] using ih

@[simp] theorem get?_empty (k : κ) : (empty : Table κ α).get? k = none := rfl

@[simp] theorem get?_erase_self (t : Table κ α) (k : κ) : (t.erase k).get? k = none := by
  have left := lookup_filter (fun j => decide (j ≠ k)) k t.rows
  rwa [if_neg (by simp)] at left

theorem get?_erase_ne (t : Table κ α) {k j : κ} (h : j ≠ k) : (t.erase k).get? j = t.get? j := by
  have left := lookup_filter (fun i => decide (i ≠ k)) j t.rows
  rwa [if_pos (decide_eq_true h)] at left

@[simp] theorem get?_insert_self (t : Table κ α) (k : κ) (a : α) :
    (t.insert k a).get? k = some a := by
  simp [get?, insert, lookup]

theorem get?_insert_ne (t : Table κ α) {k j : κ} (h : j ≠ k) (a : α) :
    (t.insert k a).get? j = t.get? j := by
  simpa [get?, insert, lookup, Ne.symm h] using t.get?_erase_ne h

/-- A key has a row exactly if it is among the keys. -/
theorem mem_keys_iff (t : Table κ α) (k : κ) : k ∈ t.keys ↔ (t.get? k).isSome := by
  simp only [keys, get?]
  induction t.rows with
  | nil => simp [lookup]
  | cons row rest ih =>
    by_cases h : row.1 = k
    · simp [lookup, h]
    · simpa [lookup, h, Ne.symm h] using ih

end Table

end MountSync
