/-
What a transfer leaves of a mount.

A transfer makes a temporary file and in the end either drops it or gives it the name it was
written for.  The first leaves everything as it was, and the second changes one entry.  So there
are two things that a mount can be after a transfer: the *same* at every place, or different in one
entry alone.

Looking up a path asks for nothing but what is at places.  The same mount therefore answers alike,
and one with a different entry answers alike unless the path ends at that entry: neither a file nor
a gap leads any further.
-/
import MountSync.Mount.Change
import MountSync.Proofs.Mount
import Mathlib.Algebra.Group.Nat.Defs

namespace MountSync

namespace FileTree

variable {t t' : FileTree}

/-! ### Trees with the same at every place

A tree may list its nodes in another order and still have the same at every place.  A walk cannot
tell the two apart.
-/

theorem next_congr (same : ∀ p, t'.get? p = t.get? p) (place : Place) (component : List Char) :
    t'.next place component = t.next place component := by
  rw [next, next, enter, enter, same, named, named, same]

theorem along_congr (same : ∀ p, t'.get? p = t.get? p)
    {onLink onLink' : Place → List (List Char) → Except IoFault Destination}
    (links : ∀ p way, onLink' p way = onLink p way) :
    ∀ (way : List (List Char)) (p : Place), t'.along onLink' p way = t.along onLink p way := by
  intro way
  induction way with
  | nil =>
      intro p
      rw [along, along, same]
  | cons component rest ih =>
      intro p
      rw [along, along, next_congr same]
      cases t.next p component with
      | place q => exact ih q
      | link start way => exact links _ _
      | nothing name => rfl
      | refusal fault => rfl

/-- A walk asks for nothing but what is at places. -/
theorem walk_congr (same : ∀ p, t'.get? p = t.get? p) :
    ∀ (links : Nat) (p : Place) (way : List (List Char)),
      t'.walk links p way = t.walk links p way := by
  intro links
  induction links with
  | zero =>
      intro p way
      exact along_congr same (fun _ _ => rfl) way p
  | succ links ih =>
      intro p way
      exact along_congr same ih way p

/-! ### Trees that differ in one entry

No directory is at the place that differs, so a walk can come to it only with its last step, or over
a link to it.
-/

/-- A place where there is no directory leads no further. -/
theorem along_of_leaf {onLink : Place → List (List Char) → Except IoFault Destination}
    {q r : Place} {node : Node} (leaf : t.get? q ≠ some .directory) :
    ∀ way, t.along onLink q way = .ok (.found r node) → r = q := by
  intro way h
  cases way with
  | nil =>
      rw [along] at h
      split at h
      · cases h
      · cases h
        rfl
  | cons component rest =>
      have refused : ∃ fault, t.enter q = .error fault := by
        unfold enter
        split
        · exact ⟨_, rfl⟩
        · rename_i hd
          exact absurd hd leaf
        · exact ⟨_, rfl⟩
      obtain ⟨fault, hfault⟩ := refused
      rw [along, next, hfault] at h
      cases h

/-- What is different in two trees is one place, which is a directory in neither and a link in
the second one no more. -/
structure DiffersAt (q : Place) (t t' : FileTree) : Prop where
  others : ∀ p, p ≠ q → t'.get? p = t.get? p
  before : t.get? q ≠ some .directory
  after : t'.get? q = none ∨ ∃ f, t'.get? q = some (.file f)

namespace DiffersAt

variable {q : Place}

theorem leaf (h : DiffersAt q t t') : t'.get? q ≠ some .directory := by
  intro hd
  rcases h.after with none | ⟨f, file⟩
  · rw [none] at hd
    exact nomatch hd
  · rw [file] at hd
    exact nomatch hd

theorem enter_eq (h : DiffersAt q t t') {p : Place} (hp : p ≠ q) : t'.enter p = t.enter p := by
  rw [enter, enter, h.others p hp]

/-- One step further leads to the same, or to the place that is different. -/
theorem next_eq (h : DiffersAt q t t') {p : Place} (hp : p ≠ q) (component : List Char) :
    t'.next p component = t.next p component ∨ t'.next p component = .place q ∨
      ∃ name, t'.next p component = .nothing name := by
  unfold next
  rw [h.enter_eq hp]
  cases t.enter p with
  | error fault => exact Or.inl rfl
  | ok entered =>
      dsimp only
      split
      · exact Or.inl rfl
      split
      · exact Or.inl rfl
      split
      · exact Or.inl rfl
      · by_cases hq : .text (String.ofList component) :: p = q
        · refine Or.inr ?_
          unfold named
          rw [hq]
          rcases h.after with none | ⟨f, file⟩
          · rw [none]
            exact Or.inr ⟨_, rfl⟩
          · rw [file]
            exact Or.inl rfl
        · refine Or.inl ?_
          rw [named, named, h.others _ hq]

theorem along_eq (h : DiffersAt q t t')
    {onLink onLink' : Place → List (List Char) → Except IoFault Destination} {r : Place}
    {node : Node}
    (links : ∀ p way, onLink' p way = .ok (.found r node) →
      onLink p way = .ok (.found r node) ∨ r = q) :
    ∀ (way : List (List Char)) (p : Place), t'.along onLink' p way = .ok (.found r node) →
      t.along onLink p way = .ok (.found r node) ∨ r = q := by
  intro way
  -- Both trees lead the same way up to the place where they differ, and no way leads on from there.
  induction way with
  | nil =>
      intro p found
      by_cases hp : p = q
      · exact Or.inr (hp ▸ along_of_leaf (hp ▸ h.leaf) _ found)
      · rw [along, h.others p hp] at found
        exact Or.inl (by rw [along]; exact found)
  | cons component rest ih =>
      intro p found
      by_cases hp : p = q
      · exact Or.inr (hp ▸ along_of_leaf (hp ▸ h.leaf) _ found)
      · rw [along] at found
        rcases h.next_eq hp component with same | ended | ⟨name, gone⟩
        · rw [same] at found
          rw [along]
          cases hn : t.next p component with
          | place p' =>
              rw [hn] at found
              exact ih p' found
          | link start way =>
              rw [hn] at found
              exact links _ _ found
          | nothing name =>
              rw [hn] at found
              exact Or.inl found
          | refusal fault =>
              rw [hn] at found
              cases found
        · rw [ended] at found
          exact Or.inr (along_of_leaf h.leaf _ found)
        · rw [gone] at found
          dsimp only at found
          split at found <;> cases found

/-- What a walk finds it found before, unless it ends at the place that is different. -/
theorem walk_eq (h : DiffersAt q t t') {r : Place} {node : Node} :
    ∀ (links : Nat) (p : Place) (way : List (List Char)),
      t'.walk links p way = .ok (.found r node) →
        t.walk links p way = .ok (.found r node) ∨ r = q := by
  intro links
  induction links with
  | zero =>
      intro p way found
      refine h.along_eq ?_ way p found
      intro _ _ refused
      exact nomatch refused
  | succ links ih =>
      intro p way found
      exact h.along_eq ih way p found

end DiffersAt

/-! ### Trees with another file at one place -/

/-- What is different in two trees is which file is at one place. -/
structure RefilledAt (q : Place) (t t' : FileTree) : Prop where
  others : ∀ p, p ≠ q → t'.get? p = t.get? p
  before : ∃ f, t.get? q = some (.file f)
  after : ∃ f, t'.get? q = some (.file f)

namespace RefilledAt

variable {q : Place}

theorem enter_eq (h : RefilledAt q t t') (p : Place) : t'.enter p = t.enter p := by
  rw [enter, enter]
  by_cases hp : p = q
  · obtain ⟨f, before⟩ := h.before
    obtain ⟨f', after⟩ := h.after
    rw [hp, before, after]
  · rw [h.others p hp]

/-- No file leads any further, so one step leads to the same. -/
theorem next_eq (h : RefilledAt q t t') (p : Place) (component : List Char) :
    t'.next p component = t.next p component := by
  have named : ∀ name, t'.named p name = t.named p name := by
    intro name
    unfold named
    by_cases hq : .text name :: p = q
    · obtain ⟨f, before⟩ := h.before
      obtain ⟨f', after⟩ := h.after
      rw [hq, before, after]
    · rw [h.others _ hq]
  rw [next, next, h.enter_eq, named]

theorem along_eq (h : RefilledAt q t t')
    {onLink onLink' : Place → List (List Char) → Except IoFault Destination} {r : Place}
    {node : Node}
    (links : ∀ p way, onLink p way = .ok (.found r node) →
      ∃ node', onLink' p way = .ok (.found r node')) :
    ∀ (way : List (List Char)) (p : Place), t.along onLink p way = .ok (.found r node) →
      ∃ node', t'.along onLink' p way = .ok (.found r node') := by
  intro way
  induction way with
  | nil =>
      intro p found
      rw [along] at found ⊢
      by_cases hp : p = q
      · obtain ⟨f, before⟩ := h.before
        obtain ⟨f', after⟩ := h.after
        rw [hp, before] at found
        cases found
        exact ⟨_, by rw [hp, after]⟩
      · rw [h.others p hp]
        exact ⟨node, found⟩
  | cons component rest ih =>
      intro p found
      rw [along] at found ⊢
      rw [h.next_eq]
      cases hn : t.next p component with
      | place p' =>
          rw [hn] at found
          exact ih p' found
      | link start way =>
          rw [hn] at found
          exact links _ _ found
      | nothing name =>
          rw [hn] at found
          dsimp only at found
          split at found <;> cases found
      | refusal fault =>
          rw [hn] at found
          cases found

/-- A walk that ends somewhere ends there in both trees. -/
theorem walk_eq (h : RefilledAt q t t') {r : Place} {node : Node} :
    ∀ (links : Nat) (p : Place) (way : List (List Char)),
      t.walk links p way = .ok (.found r node) →
        ∃ node', t'.walk links p way = .ok (.found r node') := by
  intro links
  induction links with
  | zero =>
      intro p way found
      refine h.along_eq ?_ way p found
      intro _ _ refused
      exact nomatch refused
  | succ links ih =>
      intro p way found
      exact h.along_eq ih way p found

end RefilledAt

end FileTree

/-! ### Files that are what is told of them

A file has a size and a content, and a machine may tell the one without having the other.  Whatever
is announced is the size, and whatever is sent is the content.
-/

/-- What is read of a file is its content. -/
theorem File.read_eq {f : File} {content : Bytes} (h : f.read = .ok content) :
    content = f.content := by
  unfold read at h
  split at h
  · exact nomatch h
  · cases h
    rfl

/-- A file that keeps its content, of a size that can be told. -/
structure File.IsPlain (f : File) : Prop where
  kept : f.facade = none
  small : f.content.length < 2 ^ 64

theorem File.IsPlain.read {f : File} (h : f.IsPlain) : f.read = .ok f.content := by
  rw [File.read, h.kept]

/-- The size that is announced of such a file is the length of its content. -/
theorem File.IsPlain.toNat_size {f : File} (h : f.IsPlain) :
    (UInt64.ofNat f.size).toNat = f.content.length := by
  rw [File.size, h.kept, UInt64.toNat_ofNat']
  exact Nat.mod_eq_of_lt h.small

/-- A file that can be read, and of which as many bytes are told as it has. -/
structure File.IsSized (f : File) : Prop where
  read : f.read = .ok f.content
  toNat_size : (UInt64.ofNat f.size).toNat = f.content.length

theorem File.IsPlain.isSized {f : File} (h : f.IsPlain) : f.IsSized := ⟨h.read, h.toNat_size⟩

/-- A size that can be told is less than what does not fit into a word. -/
theorem File.IsSized.small {f : File} (h : f.IsSized) : f.content.length < 2 ^ 64 :=
  h.toNat_size ▸ (UInt64.ofNat f.size).toNat_lt

theorem File.IsSized.size_ne_zero {f : File} (h : f.IsSized) (nonempty : f.content ≠ []) :
    UInt64.ofNat f.size ≠ 0 := by
  intro zero
  have size := h.toNat_size
  rw [zero] at size
  exact nonempty (List.length_eq_zero_iff.1 size.symm)

namespace Mount

/-- A mount with a link to a file that the machine makes up when it is read: it has six bytes, and is
said to have none. -/
def unsized : Mount where
  tree := (((FileTree.bare.put [.text "mnt"] .directory).put [.text "ostype"]
    (.file ⟨[76, 105, 110, 117, 120, 10], .atSecond 5, 1, some ⟨0, none⟩⟩)).put
      [.text "f", .text "mnt"] (.link "/ostype"))
  place := [.text "mnt"]

/-! ### Paths that are looked up

A path that is too long is refused before the first step, so it makes no difference to it what is in
the tree.
-/

/-- Whether a path is looked up at all. -/
def PathFits (m : Mount) (path : String) : Prop :=
  path.toList.contains '\x00' = false ∧
    path.utf8ByteSize + (if isAbsolute path then 0 else m.pathSize) ≤ pathLimit

theorem pathFits_congr {m m' : Mount} (h : m'.place = m.place) {path : String} :
    m'.PathFits path ↔ m.PathFits path := by
  rw [PathFits, PathFits, pathSize, pathSize, h]

theorem find_of_pathFits {m : Mount} {path : String} (h : m.PathFits path) :
    m.find path = m.tree.find m.place path := by
  obtain ⟨noNul, short⟩ := h
  rw [find, noNul, if_neg Bool.false_ne_true, if_neg (Nat.not_lt.2 short)]

theorem pathFits_of_locate {m : Mount} {path : String} {r : Place × Node}
    (h : m.locate path = .ok r) : m.PathFits path := by
  by_cases noNul : path.toList.contains '\x00' = true
  · rw [locate, find, if_pos noNul] at h
    cases h
  by_cases long : path.utf8ByteSize + (if isAbsolute path then 0 else m.pathSize) > pathLimit
  · rw [locate, find, if_neg noNul, if_pos long] at h
    cases h
  · exact ⟨Bool.not_eq_true _ ▸ noNul, Nat.not_lt.1 long⟩

theorem locate_eq_ok_iff {m : Mount} {path : String} {p : Place} {node : Node} :
    m.locate path = .ok (p, node) ↔
      m.PathFits path ∧ m.tree.find m.place path = .ok (.found p node) := by
  constructor
  · intro h
    have fits := pathFits_of_locate h
    refine ⟨fits, ?_⟩
    rw [locate, find_of_pathFits fits] at h
    split at h
    · rename_i hfind
      cases h
      exact hfind
    · cases h
    · cases h
  · rintro ⟨fits, found⟩
    rw [locate, find_of_pathFits fits, found]

/-! ### What is in a mount -/

/-- A mount with the given files, and their times. -/
def holding (files : List (String × Bytes × UnixTime)) : Mount :=
  files.foldl
    (fun m f => m.withTree (m.tree.create (m.placeOf (.text f.1)) f.2.1 (.atSecond f.2.2)))
    (.empty .bare [.text "mnt"])

/-- What is read of the file that a name leads to. -/
def contentOf? (m : Mount) (name : String) : Option Bytes :=
  match m.locate name with
  | .ok (_, .file f) => f.read.toOption
  | _ => none

theorem contentOf?_of_locate {m : Mount} {name : String} {p : Place} {f : File}
    (h : m.locate name = .ok (p, .file f)) (plain : f.IsPlain) :
    m.contentOf? name = some f.content := by
  rw [contentOf?, h]
  dsimp only
  rw [plain.read]
  rfl

/-! ### Mounts that are the same -/

/-- The same directory, with the same at every place. -/
structure SameAs (m m' : Mount) : Prop where
  place : m'.place = m.place
  nodes : ∀ p, m'.tree.get? p = m.tree.get? p

namespace SameAs

variable {m m' m'' : Mount}

theorem refl (m : Mount) : m.SameAs m := ⟨rfl, fun _ => rfl⟩

theorem of_eq (h : m' = m) : m.SameAs m' := h ▸ refl m

theorem get?_eq (h : m.SameAs m') (name : EntryName) : m'.get? name = m.get? name := by
  rw [get?, get?, placeOf, placeOf, h.place, h.nodes]

theorem locate_eq (h : m.SameAs m') (path : String) : m'.locate path = m.locate path := by
  have walk : m'.tree.find m'.place path = m.tree.find m.place path := by
    rw [FileTree.find, FileTree.find, h.place, FileTree.walk_congr h.nodes]
  rw [locate, locate, find, find, walk, pathSize, pathSize, h.place]

end SameAs

/-! ### Mounts that differ in one entry

An entry can be put in place or taken away.  If it is a file that is put in place of a file, every
path goes on leading to where it led.
-/

/-- The same directory, with the same at every place but that of one entry. -/
structure Puts (m : Mount) (name : String) (entry : Option Node) (m' : Mount) : Prop where
  place : m'.place = m.place
  entry : m'.get? (.text name) = entry
  others : ∀ p, p ≠ m.placeOf (.text name) → m'.tree.get? p = m.tree.get? p

section

variable {m m' : Mount} {name : String}

theorem Puts.get?_ne {entry : Option Node} (h : m.Puts name entry m') {other : EntryName}
    (hne : other ≠ .text name) : m'.get? other = m.get? other := by
  rw [get?, placeOf, h.place]
  exact h.others _ fun same => hne (m.placeOf_injective same)

/-- What a path leads to is what it led to before, unless it ends at the entry. -/
theorem Puts.locate_eq {entry : Option Node} (h : m.Puts name entry m')
    (before : m.get? (.text name) ≠ some .directory)
    (after : entry = none ∨ ∃ f, entry = some (.file f)) {path : String} {p : Place} {node : Node}
    (found : m'.locate path = .ok (p, node)) :
    m.locate path = .ok (p, node) ∨ p = m.placeOf (.text name) ∧ entry = some node := by
  have entry' : m'.tree.get? (m.placeOf (.text name)) = entry := by
    have hentry := h.entry
    rwa [get?, placeOf, h.place] at hentry
  have differs : FileTree.DiffersAt (m.placeOf (.text name)) m.tree m'.tree := by
    refine ⟨h.others, before, ?_⟩
    rw [entry']
    exact after
  obtain ⟨fits, walked⟩ := locate_eq_ok_iff.1 found
  have place : m'.place.start path = m.place.start path := by rw [h.place]
  rw [FileTree.find, place] at walked
  rcases differs.walk_eq _ _ _ walked with same | ended
  · exact Or.inl (locate_eq_ok_iff.2 ⟨(pathFits_congr h.place).1 fits, same⟩)
  · refine Or.inr ⟨ended, ?_⟩
    rw [← entry', ← ended]
    exact get?_of_locate found

/-- The same directory, with another file as one entry. -/
structure Refilled (m : Mount) (name : String) (f' : File) (m' : Mount) : Prop where
  before : ∃ f, m.get? (.text name) = some (.file f)
  puts : m.Puts name (some (.file f')) m'

theorem Refilled.refilledAt {f' : File} (h : m.Refilled name f' m') :
    FileTree.RefilledAt (m.placeOf (.text name)) m.tree m'.tree where
  others := h.puts.others
  before := h.before
  after := by
    have entry := h.puts.entry
    rw [get?, placeOf, h.puts.place] at entry
    exact ⟨f', entry⟩

/-- A path leads to the same place, and to the same there unless it is the entry. -/
theorem Refilled.locate {f' : File} (h : m.Refilled name f' m') {path : String} {p : Place}
    {node : Node} (found : m.locate path = .ok (p, node)) :
    ∃ node', m'.locate path = .ok (p, node') ∧
      (p ≠ m.placeOf (.text name) → node' = node) := by
  obtain ⟨fits, walked⟩ := locate_eq_ok_iff.1 found
  obtain ⟨node', walked'⟩ := h.refilledAt.walk_eq _ _ _ walked
  have place : m'.place.start path = m.place.start path := by rw [h.puts.place]
  have found' : m'.locate path = .ok (p, node') := by
    refine locate_eq_ok_iff.2 ⟨(pathFits_congr h.puts.place).2 fits, ?_⟩
    rw [FileTree.find, place]
    exact walked'
  refine ⟨node', found', fun other => ?_⟩
  have same := h.puts.others p other
  rw [get?_of_locate found, get?_of_locate found'] at same
  exact Option.some.inj same

/-- The entry in turn replaces the file that it was put for. -/
theorem Refilled.symm {f' : File} (h : m.Refilled name f' m') : ∃ f, m'.Refilled name f m := by
  obtain ⟨f, before⟩ := h.before
  refine ⟨f, ⟨f', h.puts.entry⟩, h.puts.place.symm, before, ?_⟩
  intro p other
  rw [placeOf, h.puts.place] at other
  exact (h.puts.others p other).symm

end

/-- What becomes of a mount in which a content is put under a name: the entry is a file with that
content, unless there is a directory. -/
structure Placed (m : Mount) (now : UnixTime) (name : String) (content : Bytes) (m' : Mount) :
    Prop where
  free : m.get? (.text name) ≠ some .directory
  entry : ∃ f, m.Puts name (some (.file f)) m' ∧ f.content = content ∧
    f.modified = .atSecond now ∧ f.facade = none

/-! ### Temporary files -/

/-- A mount in which a temporary file was made. -/
structure Opened (m : Mount) (temporary : EntryName) (m' : Mount) : Prop where
  place : m'.place = m.place
  absent : m.get? temporary = none
  hidden : ∀ name : String, EntryName.text name ≠ temporary
  file : ∃ f, m'.get? temporary = some (.file f) ∧ f.facade = none
  others : ∀ p, p ≠ m.placeOf temporary → m'.tree.get? p = m.tree.get? p

theorem opened_of_createPartial {m m' : Mount} {now : UnixTime} {temporary : EntryName}
    (h : m.createPartial now = .ok (m', temporary)) : m.Opened temporary m' := by
  unfold createPartial at h
  split at h
  · exact nomatch h
  · cases h
    exact {
      place := rfl
      absent := m.get?_freshPartial
      hidden := fun name => nofun
      file := ⟨_, m.tree.get?_create_self _ _ _, rfl⟩
      others := fun p hp => m.tree.get?_create_ne hp _ _ }

/-- A temporary file can be made in any directory. -/
theorem createPartial_of_enter {m : Mount} (h : m.enter = .ok ()) (now : UnixTime) :
    ∃ r, m.createPartial now = .ok r := by
  rw [createPartial, h]
  exact ⟨_, rfl⟩

theorem enter_of_createPartial {m m' : Mount} {now : UnixTime} {temporary : EntryName}
    (h : m.createPartial now = .ok (m', temporary)) : m.enter = .ok () := by
  unfold createPartial at h
  split at h
  · exact nomatch h
  · assumption

namespace Opened

variable {m m' : Mount} {temporary : EntryName}

/-- Dropping the temporary file leaves what there was before it. -/
theorem drop (h : m.Opened temporary m') : m.SameAs (m'.drop temporary) where
  place := h.place
  nodes := by
    intro p
    have place : m'.placeOf temporary = m.placeOf temporary := by rw [placeOf, placeOf, h.place]
    by_cases hp : p = m.placeOf temporary
    · rw [Mount.drop, withTree, place, hp, FileTree.get?_drop_self]
      exact h.absent.symm
    · rw [Mount.drop, withTree, place, FileTree.get?_drop_ne _ hp]
      exact h.others p hp

theorem get?_text (h : m.Opened temporary m') (name : String) :
    m'.get? (.text name) = m.get? (.text name) := by
  rw [get?, placeOf, h.place]
  exact h.others _ fun same => h.hidden name (m.placeOf_injective same)

theorem install_directory (h : m.Opened temporary m') {name : String}
    (directory : m.get? (.text name) = some .directory) (content : Bytes) (written : UnixTime) :
    m'.install temporary name content written = .error .isDirectory := by
  obtain ⟨f, hf, -⟩ := h.file
  rw [install, hf]
  dsimp only
  rw [if_pos ((h.get?_text name).trans directory)]

/-- Giving the temporary file a name changes the entry of that name and nothing else. -/
theorem install (h : m.Opened temporary m') {name : String}
    (free : m.get? (.text name) ≠ some .directory) (content : Bytes) (written : UnixTime) :
    ∃ m'', m'.install temporary name content written = .ok m'' ∧
      m.Placed written name content m'' := by
  obtain ⟨f, hf, kept⟩ := h.file
  have free' : m'.get? (.text name) ≠ some .directory := by
    rw [h.get?_text]
    exact free
  refine ⟨(m'.drop temporary).put (.text name)
    (.file { f with content, modified := .atSecond written }), ?_, free,
    { f with content, modified := .atSecond written }, ?_, rfl, rfl, kept⟩
  · rw [Mount.install, hf]
    dsimp only
    rw [if_neg free']
  · have dropped := h.drop
    refine ⟨h.place, get?_put_self .., ?_⟩
    intro p hp
    have place : (m'.drop temporary).placeOf (.text name) = m.placeOf (.text name) := by
      rw [placeOf, placeOf, dropped.place]
    rw [put, withTree, place, FileTree.get?_put_ne _ hp]
    exact dropped.nodes p

end Opened

/-! ### Names that a mount admits

There are names that a directory can have and calls may not use.  `Reaches` is about the first, and
`Admits` adds what calls ask for.
-/

/-- A name that a directory can have and that can be looked up in a mount. -/
structure Reaches (m : Mount) (name : String) : Prop where
  possible : canName name = true
  entered : m.enter = .ok ()
  fits : m.PathFits name
  short : (name.utf8ByteSize > FileTree.nameLimit && !FileTree.isReserved m.place) = false

namespace Reaches

variable {m : Mount} {name : String}

theorem find_eq (h : m.Reaches name) :
    m.tree.find m.place name =
      match m.get? (.text name) with
      | none => .ok (.vacancy m.place name)
      | some (.link target) =>
        m.tree.walk 39 (m.place.start target) (pathComponents target.toList ++ [])
      | some (.jump target) => m.tree.walk 39 target ([] ++ [])
      | some node => .ok (.found (m.placeOf (.text name)) node) := by
  have entered : m.tree.enter m.place = .ok () := h.entered
  rw [find_of_canName h.possible, entered]
  dsimp only
  rw [if_neg (by rw [h.short]; exact Bool.false_ne_true)]
  rfl

/-- Under a name without an entry nothing is found. -/
theorem locate_none (h : m.Reaches name) (absent : m.get? (.text name) = none) :
    m.locate name = .error .noSuchFile := by
  rw [locate, find_of_pathFits h.fits, h.find_eq, absent]

/-- Under the name of an entry that is no link the entry is found. -/
theorem locate_entry (h : m.Reaches name) {node : Node} (entry : m.get? (.text name) = some node)
    (noLink : node.isLink = false) : m.locate name = .ok (m.placeOf (.text name), node) := by
  rw [locate, find_of_pathFits h.fits, h.find_eq, entry]
  cases node <;> first | rfl | cases noLink

end Reaches

/-- A name that a call may use and that is not too long to be looked up. -/
structure Admits (m : Mount) (name : String) : Prop where
  accepted : accepts name = true
  entered : m.enter = .ok ()
  fits : m.PathFits name
  short : (name.utf8ByteSize > FileTree.nameLimit && !FileTree.isReserved m.place) = false

namespace Admits

variable {m m' : Mount} {name : String}

theorem reaches (h : m.Admits name) : m.Reaches name :=
  ⟨canName_of_accepts h.accepted, h.entered, h.fits, h.short⟩

/-- Under a name without an entry nothing is found. -/
theorem locate_none (h : m.Admits name) (absent : m.get? (.text name) = none) :
    m.locate name = .error .noSuchFile :=
  h.reaches.locate_none absent

/-- Under the name of an entry that is no link the entry is found. -/
theorem locate_entry (h : m.Admits name) {node : Node} (entry : m.get? (.text name) = some node)
    (noLink : node.isLink = false) : m.locate name = .ok (m.placeOf (.text name), node) :=
  h.reaches.locate_entry entry noLink

/-- Under the name of a file the file is found. -/
theorem locate_file (h : m.Admits name) {f : File} (entry : m.get? (.text name) = some (.file f)) :
    m.locate name = .ok (m.placeOf (.text name), .file f) :=
  h.locate_entry entry rfl

/-- A name under which something is found is admitted. -/
theorem of_locate (accepted : accepts name = true) {r : Place × Node}
    (found : m.locate name = .ok r) : m.Admits name := by
  obtain ⟨p, node⟩ := r
  obtain ⟨fits, walked⟩ := locate_eq_ok_iff.1 found
  rw [find_of_canName (canName_of_accepts accepted)] at walked
  cases entered : m.tree.enter m.place with
  | error fault =>
      rw [entered] at walked
      exact nomatch walked
  | ok u =>
      rw [entered] at walked
      dsimp only at walked
      cases long : (name.utf8ByteSize > FileTree.nameLimit && !FileTree.isReserved m.place) with
      | true =>
          rw [if_pos long] at walked
          exact nomatch walked
      | false => exact ⟨accepted, entered, fits, long⟩

theorem congr (h : m.Admits name) (place : m'.place = m.place)
    (directory : m'.tree.get? m.place = m.tree.get? m.place) : m'.Admits name where
  accepted := h.accepted
  entered := by
    have entered := h.entered
    rw [enter, FileTree.enter] at entered ⊢
    rw [place, directory]
    exact entered
  fits := (pathFits_congr place).2 h.fits
  short := by
    rw [place]
    exact h.short

theorem puts (h : m.Admits name) {other : String} {entry : Option Node}
    (s : m.Puts other entry m') : m'.Admits name :=
  h.congr s.place (s.others _ fun same => m.placeOf_ne_place _ same.symm)

end Admits

/-! ### Records -/

theorem statFile_of_file {m : Mount} {name : String} (accepted : accepts name = true) {p : Place}
    {f : File} (found : m.locate name = .ok (p, .file f)) {content : Bytes}
    (read : f.read = .ok content) :
    m.statFile name = .ok (some (recordOf name f content)) := by
  rw [statFile, checkName, if_pos accepted, found]
  dsimp only
  rw [read]

theorem statFile_of_missing {m : Mount} {name : String} (accepted : accepts name = true)
    (missing : m.locate name = .error .noSuchFile) : m.statFile name = .ok none := by
  rw [statFile, checkName, if_pos accepted, missing]

theorem accepts_of_statFile {m : Mount} {name : String} {found : Option FileRecord}
    (h : m.statFile name = .ok found) : accepts name = true := by
  cases accepted : accepts name with
  | true => rfl
  | false =>
      rw [statFile, checkName_of_refused accepted] at h
      cases h

/-- A name that can be looked at in a directory is admitted. -/
theorem Admits.of_statFile {m : Mount} {name : String} {found : Option FileRecord}
    (h : m.statFile name = .ok found) (entered : m.enter = .ok ()) : m.Admits name := by
  have accepted := accepts_of_statFile h
  rw [statFile, checkName, if_pos accepted] at h
  dsimp only at h
  have possible := canName_of_accepts accepted
  have noNul : name.toList.contains '\x00' = false := by
    simp only [canName, Bool.and_eq_true, Bool.not_eq_true'] at possible
    exact possible.2
  -- A name that is too long is refused before anything is looked up.
  have refused : ∀ fault, m.find name = .error fault → fault = .noSuchFile := by
    intro fault failed
    rw [locate, failed] at h
    cases fault <;> first | rfl | cases h
  have fits : m.PathFits name := by
    refine ⟨noNul, Nat.not_lt.1 fun long => ?_⟩
    have failed : m.find name = .error .nameTooLong := by
      rw [find, noNul, if_neg Bool.false_ne_true, if_pos long]
    cases refused _ failed
  refine ⟨accepted, entered, fits, Bool.not_eq_true _ ▸ fun long => ?_⟩
  have failed : m.find name = .error .nameTooLong := by
    have entered' : m.tree.enter m.place = .ok () := entered
    rw [find_of_pathFits fits, find_of_canName possible, entered']
    exact if_pos long
  cases refused _ failed

/-- A record is that of a file that the name leads to and that can be read. -/
theorem file_of_statFile {m : Mount} {name : String} {r : FileRecord}
    (h : m.statFile name = .ok (some r)) :
    accepts name = true ∧ ∃ p f, m.locate name = .ok (p, .file f) ∧ f.read = .ok f.content ∧
      r = recordOf name f f.content := by
  have accepted := accepts_of_statFile h
  refine ⟨accepted, ?_⟩
  rw [statFile, checkName, if_pos accepted] at h
  dsimp only at h
  split at h
  · rename_i p f found
    split at h
    · cases h
    · rename_i content hread
      cases h
      obtain rfl := File.read_eq hread
      exact ⟨p, f, found, hread, rfl⟩
  · cases h
  · cases h
  · cases h

end Mount

end MountSync
