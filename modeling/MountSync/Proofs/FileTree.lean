/-
The numbers of files, and where a walk ends.

Each new file gets the number that is next, so a number once given never comes back, and what
has the number of an open file is that file.  This holds of a bare tree, and is kept by whatever
puts, makes or drops files.
-/
import MountSync.FileTree.Lookup

namespace MountSync.FileTree

/-! ### Numbers

The number that is next is above all that are in use, and each way to change a tree keeps it so.
-/

/-- Every file has a number that was given before the next one. -/
def Numbered (t : FileTree) : Prop :=
  ∀ p f, t.get? p = some (.file f) → f.inode < t.nextInode

variable {t : FileTree}

theorem numbered_bare : bare.Numbered := by
  intro p f h
  by_cases hp : p = []
  · subst hp
    have root : bare.get? [] = some .directory := rfl
    rw [root] at h
    cases h
  · rw [get?, bare, Table.get?_insert_ne _ hp, Table.get?_empty] at h
    cases h

/-- A file that takes the place of another one, or of nothing, has a number of its own. -/
theorem Numbered.put (h : t.Numbered) (p : Place) {node : Node}
    (hn : ∀ f, node = .file f → f.inode < t.nextInode) : (t.put p node).Numbered := by
  intro q f hq
  by_cases hqp : q = p
  · subst hqp
    rw [get?_put_self] at hq
    exact hn f (Option.some.inj hq)
  · rw [get?_put_ne t hqp] at hq
    exact h q f hq

theorem Numbered.drop (h : t.Numbered) (p : Place) : (t.drop p).Numbered := by
  intro q f hq
  by_cases hqp : q = p
  · subst hqp
    rw [get?_drop_self] at hq
    exact nomatch hq
  · rw [get?_drop_ne t hqp] at hq
    exact h q f hq

/-- Putting a new file under the next number. -/
theorem Numbered.put_next (h : t.Numbered) (p : Place) {f : File} (hf : f.inode = t.nextInode) :
    ({ t.put p (.file f) with nextInode := t.nextInode + 1 } : FileTree).Numbered := by
  intro q g hq
  by_cases hqp : q = p
  · subst hqp
    have hg : (t.put q (.file f)).get? q = some (.file g) := hq
    rw [get?_put_self] at hg
    cases hg
    rw [hf]
    exact Nat.lt_succ_self _
  · have hg : (t.put p (.file f)).get? q = some (.file g) := hq
    rw [get?_put_ne t hqp] at hg
    exact Nat.lt_succ_of_lt (h q g hg)

theorem Numbered.create (h : t.Numbered) (p : Place) (content : Bytes) (modified : Timestamp) :
    (t.create p content modified).Numbered := h.put_next p rfl

/-! ### Where a walk ends

A walk goes from link to link, so the induction is on how many links it may still follow, and for
each of them on the components of the way.
-/

/-- If links lead to what is there, so does a way that may go over one. -/
theorem get?_of_along {onLink : Place → List (List Char) → Except IoFault Destination}
    {q : Place} {node : Node}
    (after : ∀ p way, onLink p way = .ok (.found q node) → t.get? q = some node) :
    ∀ (way : List (List Char)) (p : Place), t.along onLink p way = .ok (.found q node) →
      t.get? q = some node := by
  intro way
  induction way with
  | nil =>
      intro p h
      rw [along] at h
      split at h
      · exact nomatch h
      · rename_i found hg
        cases h
        exact hg
  | cons component rest ih =>
      intro p h
      rw [along] at h
      split at h
      · exact ih _ h
      · exact after _ _ h
      · split at h <;> exact nomatch h
      · exact nomatch h

/-- A walk ends at a place where there is what it has found. -/
theorem get?_of_walk {q : Place} {node : Node} :
    ∀ (links : Nat) (p : Place) (way : List (List Char)),
      t.walk links p way = .ok (.found q node) → t.get? q = some node := by
  intro links
  induction links with
  | zero =>
      intro p way h
      rw [walk] at h
      refine get?_of_along ?_ way p h
      intro _ _ refused
      exact nomatch refused
  | succ links ih =>
      intro p way h
      rw [walk] at h
      exact get?_of_along (fun p way => ih p way) way p h

end MountSync.FileTree
