/-
What a name leads to.

The name of an entry is a single component, so looking it up asks whether the mount is a directory
and what its entry is, and unless the entry is a link that is all.  A link is where the answer may
depend on the rest of the tree.

Calls may use fewer names than a directory can have: none that is the name of a temporary file, and
none with a backslash.
-/
import MountSync.Mount.Listing
import MountSync.Proofs.FileTree

namespace MountSync

/-- Whether there is a link, of either kind. -/
def Node.isLink : Node → Bool
  | link _ | jump _ => true
  | _ => false

/-! ### Names with one component

A name without a separator is a path of one component.  That is why a call on a name does not leave
the directory, unless its entry is a link.
-/

theorem pathComponents_of_no_separator :
    ∀ {path : List Char}, '/' ∉ path → pathComponents path = [path]
  | [], _ => rfl
  | c :: rest, h => by
      obtain ⟨hc, hrest⟩ := List.ne_and_not_mem_of_not_mem_cons h
      rw [pathComponents, if_neg (Ne.symm hc), pathComponents_of_no_separator hrest]

namespace Mount

theorem checkName_of_refused {name : String} (h : accepts name = false) :
    checkName name = .error (.invalidName name) := by
  rw [checkName, if_neg (by simp [h])]

theorem failure_of_checkName {name : String} {failure : Failure}
    (h : checkName name = .error failure) : failure = .invalidName name := by
  unfold checkName at h
  split at h
  · cases h
  · cases h
    rfl

/-- Whether a directory can have an entry of a name. -/
def canName (name : String) : Bool :=
  name != "" && name != "." && name != ".." && !name.toList.contains '/'
    && !name.toList.contains '\x00'

theorem accepts_iff {name : String} :
    accepts name = true ↔
      canName name = true ∧ '\\' ∉ name.toList ∧ isPartial name = false := by
  simp only [accepts, canName, Bool.and_eq_true, bne_iff_ne, ne_eq, Bool.not_eq_true',
    List.contains_eq_mem, decide_eq_false_iff_not]
  constructor
  · rintro ⟨⟨⟨single, backslash⟩, nul⟩, shown⟩
    exact ⟨⟨single, nul⟩, backslash, shown⟩
  · rintro ⟨⟨single, nul⟩, backslash, shown⟩
    exact ⟨⟨⟨single, backslash⟩, nul⟩, shown⟩

theorem canName_of_accepts {name : String} (h : accepts name = true) : canName name = true :=
  (accepts_iff.1 h).1

/-- The path of such a name is the name. -/
theorem components_of_canName {name : String} (h : canName name = true) :
    pathComponents name.toList = [name.toList] ∧ isAbsolute name = false ∧
      staysPut name.toList = false ∧ name.toList ≠ ['.', '.'] := by
  simp only [canName, Bool.and_eq_true, bne_iff_ne, ne_eq, Bool.not_eq_true'] at h
  obtain ⟨⟨⟨⟨hempty, hdot⟩, hdots⟩, hslash⟩, -⟩ := h
  have hsep : '/' ∉ name.toList := by simpa using hslash
  have hne : name.toList ≠ [] := fun h => hempty (String.toList_inj.1 h)
  refine ⟨pathComponents_of_no_separator hsep, ?_, ?_, fun h => hdots (String.toList_inj.1 h)⟩
  · cases hl : name.toList with
    | nil => exact absurd hl hne
    | cons first rest =>
        rw [hl] at hsep
        have hfirst : first ≠ '/' := fun same => hsep (same ▸ List.mem_cons_self ..)
        simp [isAbsolute, hl, hfirst]
  · have hdot' : name.toList ≠ ['.'] := fun h => hdot (String.toList_inj.1 h)
    simp [staysPut, hne, hdot']

/-- Looking up the name of an entry: whether one can enter the directory, and then the entry. -/
theorem find_of_canName {name : String} (h : canName name = true) (t : FileTree) (d : Place) :
    t.find d name =
      match t.enter d with
      | .error fault => .error fault
      | .ok () =>
        if name.utf8ByteSize > FileTree.nameLimit && !FileTree.isReserved d then
          .error .nameTooLong
        else match t.get? (.text name :: d) with
          | none => .ok (.vacancy d name)
          | some (.link target) =>
            t.walk 39 (d.start target) (pathComponents target.toList ++ [])
          | some (.jump target) => t.walk 39 target ([] ++ [])
          | some node => .ok (.found (.text name :: d) node) := by
  obtain ⟨hsingle, habs, hstays, hdots⟩ := components_of_canName h
  have hstart : d.start name = d := by simp [Place.start, habs]
  rw [FileTree.find, hsingle, hstart, FileTree.linkLimit, FileTree.walk, FileTree.along,
    FileTree.next]
  cases t.enter d with
  | error fault => rfl
  | ok entered =>
      simp only [hstays, Bool.false_eq_true, if_false, if_neg hdots, String.ofList_toList]
      by_cases long : (name.utf8ByteSize > FileTree.nameLimit && !FileTree.isReserved d) = true
      · rw [if_pos long, if_pos long]
      · rw [if_neg long, if_neg long, FileTree.named]
        cases hg : t.get? (.text name :: d) with
        | none => simp only [if_true]
        | some node =>
            cases node with
            | link target => rfl
            | jump target => rfl
            | _ => simp only [FileTree.along, hg]

variable {m m' : Mount} {name : String}

/-- Where the name of an entry leads is decided by the directory and the entry, if that is no
link. -/
theorem locate_congr (place : m'.place = m.place)
    (directory : m'.tree.get? m.place = m.tree.get? m.place)
    (entry : m'.get? (.text name) = m.get? (.text name)) (possible : canName name = true)
    (plain : ∀ node, m.get? (.text name) = some node → node.isLink = false) :
    m'.locate name = m.locate name := by
  have enter : m'.tree.enter m.place = m.tree.enter m.place := by
    rw [FileTree.enter, directory, FileTree.enter]
  have found : m'.tree.find m.place name = m.tree.find m.place name := by
    have entry' : m'.tree.get? (.text name :: m.place) = m.tree.get? (.text name :: m.place) := by
      rw [← place]
      rw [get?, placeOf, get?, placeOf, place] at entry
      rwa [place]
    rw [find_of_canName possible, find_of_canName possible, enter, entry']
    cases hg : m.tree.get? (.text name :: m.place) with
    | none => rfl
    | some node =>
        have hplain := plain node hg
        cases node <;> first | rfl | exact nomatch hplain
  rw [locate, find, locate, find, pathSize, place, found]
  rfl

/-- Where a path leads there is what is found. -/
theorem get?_of_locate {path : String} {p : Place} {node : Node}
    (h : m.locate path = .ok (p, node)) : m.tree.get? p = some node := by
  unfold locate at h
  split at h
  · rename_i hfind
    cases h
    unfold find at hfind
    generalize (path.utf8ByteSize + if isAbsolute path then 0 else m.pathSize) = size at hfind
    dsimp only at hfind
    split at hfind
    · exact nomatch hfind
    · split at hfind
      · exact nomatch hfind
      · exact FileTree.get?_of_walk _ _ _ hfind
  · exact nomatch h
  · exact nomatch h

theorem statFile_congr (place : m'.place = m.place)
    (directory : m'.tree.get? m.place = m.tree.get? m.place)
    (entry : m'.get? (.text name) = m.get? (.text name))
    (plain : ∀ node, m.get? (.text name) = some node → node.isLink = false) :
    m'.statFile name = m.statFile name := by
  unfold statFile
  cases accepted : accepts name with
  | false => rw [checkName_of_refused accepted]
  | true => rw [locate_congr place directory entry (canName_of_accepts accepted) plain]

/-- Looking at a file fails because of its name, or because the machine refuses. -/
theorem failure_of_statFile {failure : Failure} (h : m.statFile name = .error failure) :
    failure = .invalidName name ∨ ∃ fault, failure = .io fault := by
  unfold statFile at h
  cases accepted : accepts name with
  | false =>
      rw [checkName_of_refused accepted] at h
      cases h
      exact Or.inl rfl
  | true =>
      rw [checkName, if_pos accepted] at h
      dsimp only at h
      split at h
      · split at h <;> cases h
        exact Or.inr ⟨_, rfl⟩
      · cases h
      · cases h
      · cases h
        exact Or.inr ⟨_, rfl⟩

/-- A manifest fails because of one of its files, or because the machine refuses. -/
theorem failure_of_enumerate {failure : Failure} (h : m.enumerate = .error failure) :
    (∃ name, failure = .invalidName name) ∨ ∃ fault, failure = .io fault := by
  have files : ∀ names : List String, m.statAll names = .error failure →
      (∃ name, failure = .invalidName name) ∨ ∃ fault, failure = .io fault := by
    intro names
    induction names with
    | nil => exact nofun
    | cons name rest ih =>
        intro h
        rw [statAll] at h
        split at h
        · rename_i refused
          cases h
          exact (failure_of_statFile refused).imp (⟨name, ·⟩) id
        · split at h
          · rename_i refused
            cases h
            exact ih refused
          · cases h
  unfold enumerate at h
  split at h
  · cases h
    exact Or.inr ⟨_, rfl⟩
  · split at h
    · rename_i refused
      cases h
      exact files _ refused
    · cases h

end Mount

end MountSync
