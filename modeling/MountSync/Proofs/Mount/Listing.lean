/-
What a manifest is.

A manifest has a record for each name under which a file is found, made at the moment it is asked
for, and each name is there once: a directory has no two entries of one name, names of temporary
files are left out, and putting the records in order neither adds nor loses any.

The names that are shown are those that lead to a file; the listing takes them as they are, and the
manifest looks each of them up once more.  So there is a manifest exactly if every name that is shown
can be looked up, and then both have the same names in the same order.
-/
import MountSync.Mount.Listing
import MountSync.Proofs.Mount.Change
import Mathlib.Data.List.Perm.Subperm

namespace MountSync

/-- A directory has no two entries of one name. -/
theorem FileTree.nodup_children (t : FileTree) (p : Place) :
    ((t.children p).map Prod.fst).Nodup := by
  have distinct : t.nodes.rows.Pairwise fun a b => a.1 ≠ b.1 :=
    List.pairwise_map.1 t.nodes.distinct
  refine List.pairwise_map.2 (distinct.filterMap _ ?_)
  intro a a' different b made b' made' same
  -- A name and the directory that it is in are the place of a row.
  split at made
  · cases made
  rename_i name directory place
  split at made'
  · cases made'
  rename_i name' directory' place'
  split at made
  · rename_i here
    split at made'
    · rename_i here'
      cases made
      cases made'
      have named : name = name' := same
      exact different (by rw [place, place', here, here', named])
    · cases made'
  · cases made

/-- Whether there is no link, and no file that the machine makes up when it is read. -/
def Node.isOrdinary : Node → Bool
  | file f => f.facade.isNone && decide (f.content.length < 2 ^ 64)
  | link _ | jump _ => false
  | _ => true

theorem Node.isPlain_of_isOrdinary {f : File} (h : (Node.file f).isOrdinary = true) : f.IsPlain := by
  simp only [isOrdinary, Bool.and_eq_true, Option.isNone_iff_eq_none, decide_eq_true_eq] at h
  exact ⟨h.1, h.2⟩

theorem Node.isLink_of_isOrdinary {node : Node} (h : node.isOrdinary = true) :
    node.isLink = false := by
  cases node <;> first | rfl | exact nomatch h

namespace Mount

/-- What is asked of the names in a mount can be checked. -/
instance (m : Mount) (P : String → Prop) [DecidablePred P] :
    Decidable (∀ name, (m.get? (.text name)).isSome → P name) :=
  decidable_of_iff
    (((m.tree.children m.place).map Prod.fst).all fun
      | .text name => decide (P name)
      | _ => true) <| by
    rw [List.all_eq_true]
    constructor
    · intro all name present
      exact of_decide_eq_true (all (.text name) ((m.tree.mem_children_iff m.place _).2 present))
    · intro all entry mem
      cases entry with
      | text name => exact decide_eq_true (all name ((m.tree.mem_children_iff m.place _).1 mem))
      | binary _ => rfl
      | random _ _ _ => rfl

/-- No entry is a link, and the files keep their content. -/
def Ordinary (m : Mount) : Prop :=
  ∀ name, (m.get? (.text name)).isSome → (m.get? (.text name)).all Node.isOrdinary

instance (m : Mount) : Decidable m.Ordinary :=
  inferInstanceAs (Decidable (∀ name, _ → (m.get? (.text name)).all Node.isOrdinary = true))

theorem Ordinary.isOrdinary {m : Mount} (h : m.Ordinary) {name : String} {node : Node}
    (entry : m.get? (.text name) = some node) : node.isOrdinary = true := by
  have all := h name (Option.isSome_iff_exists.2 ⟨node, entry⟩)
  rwa [entry] at all

theorem nodup_entries (m : Mount) : (m.entries.map Prod.fst).Nodup :=
  ((m.tree.listing_perm m.place).map Prod.fst).nodup_iff.2 (m.tree.nodup_children m.place)

/-- What is listed of an entry is listed under its name. -/
theorem listed?_eq_some {m : Mount} {entry : EntryName} {name : String} {f : File}
    (listed : m.listed? entry = some (name, f)) : entry = .text name := by
  cases entry with
  | text other =>
      rw [listed?] at listed
      split at listed
      · exact nomatch listed
      split at listed
      · cases listed
        rfl
      · exact nomatch listed
  | binary _ => exact nomatch listed
  | random _ _ _ => exact nomatch listed

theorem nodup_regularFiles {m : Mount} {files : List (String × File)}
    (h : m.regularFiles = .ok files) : (files.map Prod.fst).Nodup := by
  unfold regularFiles readDirectory at h
  cases entered : m.enter with
  | error fault =>
      rw [entered] at h
      exact nomatch h
  | ok u =>
      rw [entered] at h
      cases h
      refine List.pairwise_map.2 (List.Pairwise.filterMap _ ?_ m.nodup_entries)
      rintro a a' different ⟨name, f⟩ listed ⟨name', f'⟩ listed' (rfl : name = name')
      exact different ((listed?_eq_some listed).trans (listed?_eq_some listed').symm)

/-! ### The names that are shown

What an entry leads to is looked at, and not what it is: a link to a file is shown as a file.
-/

/-- Under a name that is text, and not that of a temporary file, the mount has an entry that leads
to a file. -/
structure Shows (m : Mount) (name : String) (f : File) : Prop where
  present : (m.get? (.text name)).isSome
  shown : isPartial name = false
  leads : ∃ p, m.locate name = .ok (p, .file f)

theorem listed?_iff {m : Mount} {entry : EntryName} {name : String} {f : File} :
    m.listed? entry = some (name, f) ↔
      entry = .text name ∧ isPartial name = false ∧ ∃ p, m.locate name = .ok (p, .file f) := by
  constructor
  · intro listed
    obtain rfl := listed?_eq_some listed
    rw [listed?] at listed
    split at listed
    · exact nomatch listed
    rename_i shown
    split at listed
    · rename_i p g found
      cases listed
      exact ⟨rfl, Bool.not_eq_true _ ▸ shown, p, found⟩
    · exact nomatch listed
  · rintro ⟨rfl, shown, p, found⟩
    rw [listed?, shown, if_neg Bool.false_ne_true, found]

theorem regularFiles_of_enter {m : Mount} (entered : m.enter = .ok ()) :
    m.regularFiles = .ok ((m.entries.map Prod.fst).filterMap m.listed?) := by
  rw [regularFiles, readDirectory, entered]

theorem mem_regularFiles {m : Mount} {files : List (String × File)}
    (h : m.regularFiles = .ok files) {name : String} {f : File} :
    (name, f) ∈ files ↔ m.Shows name f := by
  cases entered : m.enter with
  | error fault =>
      rw [regularFiles, readDirectory, entered] at h
      exact nomatch h
  | ok u =>
      rw [regularFiles_of_enter entered] at h
      cases h
      rw [List.mem_filterMap]
      constructor
      · rintro ⟨entry, present, listed⟩
        obtain ⟨rfl, shown, leads⟩ := listed?_iff.1 listed
        exact ⟨(m.mem_entries_iff _).1 present, shown, leads⟩
      · rintro ⟨present, shown, leads⟩
        exact ⟨.text name, (m.mem_entries_iff _).2 present, listed?_iff.2 ⟨rfl, shown, leads⟩⟩

/-- The names that are shown. -/
theorem mem_names {m : Mount} {files : List (String × File)} (h : m.regularFiles = .ok files)
    {name : String} : name ∈ files.map Prod.fst ↔ ∃ f, m.Shows name f := by
  rw [List.mem_map]
  constructor
  · rintro ⟨⟨_, f⟩, mem, rfl⟩
    exact ⟨f, (mem_regularFiles h).1 mem⟩
  · rintro ⟨f, shows⟩
    exact ⟨(name, f), (mem_regularFiles h).2 shows, rfl⟩

/-- What looking up a name finds that is shown. -/
theorem Shows.statFile {m : Mount} {name : String} {f : File} (h : m.Shows name f) :
    m.statFile name =
      if accepts name = true then
        match f.read with
        | .error fault => .error (.io fault)
        | .ok content => .ok (some (recordOf name f content))
      else .error (.invalidName name) := by
  obtain ⟨p, found⟩ := h.leads
  rw [Mount.statFile, checkName]
  by_cases accepted : accepts name = true
  · rw [if_pos accepted, if_pos accepted]
    cases read : f.read with
    | error fault => simp only [found, read]
    | ok content => simp only [found, read]
  · rw [if_neg accepted, if_neg accepted]

/-- Whether a name that is shown can be looked up: calls may use it, and the file can be read. -/
theorem Shows.statFile_ok_iff {m : Mount} {name : String} {f : File} (h : m.Shows name f) :
    (∃ found, m.statFile name = .ok found) ↔ accepts name = true ∧ f.read = .ok f.content := by
  rw [h.statFile]
  constructor
  · rintro ⟨found, looked⟩
    split at looked
    · rename_i accepted
      refine ⟨accepted, ?_⟩
      split at looked
      · exact nomatch looked
      · rename_i content read
        rw [read, File.read_eq read]
    · exact nomatch looked
  · rintro ⟨accepted, read⟩
    rw [if_pos accepted, read]
    exact ⟨_, rfl⟩

/-! ### The records of the names

Looking up the names is a loop that stops at the first failure, so it succeeds exactly if every name
can be looked up.
-/

/-- Each name is looked up, and what is found is put under it. -/
theorem statAll_spec {m : Mount} :
    ∀ {names : List String} {records : List FileRecord}, m.statAll names = .ok records →
      (∀ r ∈ records, m.statFile r.name = .ok (some r)) ∧
        (records.map FileRecord.name).Sublist names := by
  intro names
  induction names with
  | nil =>
      intro records h
      cases h
      exact ⟨nofun, .slnil⟩
  | cons name rest ih =>
      intro records h
      rw [statAll] at h
      cases stat : m.statFile name with
      | error failure =>
          rw [stat] at h
          cases h
      | ok found =>
          rw [stat] at h
          dsimp only at h
          cases others : m.statAll rest with
          | error failure =>
              rw [others] at h
              cases h
          | ok records =>
              rw [others] at h
              cases h
              obtain ⟨looked, sublist⟩ := ih others
              cases found with
              | none => exact ⟨looked, sublist.cons name⟩
              | some record =>
                  have named : record.name = name := by
                    obtain ⟨-, -, -, -, -, rfl⟩ := file_of_statFile stat
                    rfl
                  refine ⟨List.forall_mem_cons.2 ⟨named.symm ▸ stat, looked⟩, ?_⟩
                  show (record.name :: records.map FileRecord.name).Sublist (name :: rest)
                  rw [named]
                  exact sublist.cons_cons name

/-- All names can be looked up if each can. -/
theorem statAll_ok_iff {m : Mount} (names : List String) :
    (∃ records, m.statAll names = .ok records) ↔
      ∀ name ∈ names, ∃ found, m.statFile name = .ok found := by
  induction names with
  | nil => exact ⟨fun _ => nofun, fun _ => ⟨[], rfl⟩⟩
  | cons name rest ih =>
      rw [List.forall_mem_cons, ← ih, statAll]
      constructor
      · rintro ⟨records, all⟩
        cases stat : m.statFile name with
        | error failure =>
            rw [stat] at all
            cases all
        | ok found =>
            refine ⟨⟨found, rfl⟩, ?_⟩
            rw [stat] at all
            dsimp only at all
            split at all
            · cases all
            · rename_i others looked
              exact ⟨others, looked⟩
      · rintro ⟨⟨found, stat⟩, others, looked⟩
        rw [stat, looked]
        exact ⟨_, rfl⟩

/-- If there is a file under every name then there is a record for every name, in their order. -/
theorem names_statAll {m : Mount} :
    ∀ {names : List String} {records : List FileRecord}, m.statAll names = .ok records →
      (∀ name ∈ names, m.statFile name ≠ .ok none) → records.map FileRecord.name = names := by
  intro names
  induction names with
  | nil =>
      intro records h _
      cases h
      rfl
  | cons name rest ih =>
      intro records h there
      obtain ⟨here, further⟩ := List.forall_mem_cons.1 there
      rw [statAll] at h
      cases stat : m.statFile name with
      | error failure =>
          rw [stat] at h
          cases h
      | ok found =>
          cases found with
          | none => exact absurd stat here
          | some record =>
              rw [stat] at h
              dsimp only at h
              split at h
              · cases h
              rename_i others looked
              cases h
              have named : record.name = name := by
                obtain ⟨-, -, -, -, -, rfl⟩ := file_of_statFile stat
                rfl
              show record.name :: others.map FileRecord.name = name :: rest
              rw [named, ih looked further]

theorem Shows.statFile_ne_none {m : Mount} {name : String} {f : File} (h : m.Shows name f) :
    m.statFile name ≠ .ok none := by
  rw [h.statFile]
  split
  · split <;> exact nofun
  · exact nofun

/-- **A manifest has one record for each name, the one that the mount has for it.** -/
theorem enumerate_spec {m : Mount} {records : List FileRecord} (h : m.enumerate = .ok records) :
    (∀ r ∈ records, m.statFile r.name = .ok (some r)) ∧
      (records.map FileRecord.name).Nodup := by
  unfold enumerate at h
  cases listed : m.regularFiles with
  | error fault =>
      rw [listed] at h
      exact nomatch h
  | ok files =>
      rw [listed] at h
      dsimp only at h
      cases looked : m.statAll (files.map Prod.fst) with
      | error failure =>
          rw [looked] at h
          exact nomatch h
      | ok unordered =>
          rw [looked] at h
          cases h
          obtain ⟨each, sublist⟩ := statAll_spec looked
          have same := List.mergeSort_perm unordered fun a b => decide (a.name ≤ b.name)
          refine ⟨fun r mem => each r (same.mem_iff.1 mem), ?_⟩
          exact (same.map FileRecord.name).nodup_iff.2
            (sublist.nodup (nodup_regularFiles listed))

/-- There is a manifest of a directory exactly if every name that is shown can be looked up. -/
theorem enumerate_ok_iff {m : Mount} (entered : m.enter = .ok ()) :
    (∃ records, m.enumerate = .ok records) ↔
      ∀ name f, m.Shows name f → accepts name = true ∧ f.read = .ok f.content := by
  have files := regularFiles_of_enter entered
  have made : (∃ records, m.enumerate = .ok records) ↔
      ∃ records, m.statAll (((m.entries.map Prod.fst).filterMap m.listed?).map Prod.fst)
        = .ok records := by
    rw [enumerate, files]
    dsimp only
    constructor
    · rintro ⟨records, h⟩
      split at h
      · exact nomatch h
      · rename_i unordered looked
        exact ⟨unordered, looked⟩
    · rintro ⟨unordered, looked⟩
      rw [looked]
      exact ⟨_, rfl⟩
  rw [made, statAll_ok_iff]
  constructor
  · intro all name f shows
    exact shows.statFile_ok_iff.1 (all name ((mem_names files).2 ⟨f, shows⟩))
  · intro all name mem
    obtain ⟨f, shows⟩ := (mem_names files).1 mem
    exact shows.statFile_ok_iff.2 (all name f shows)

theorem enter_of_enumerate {m : Mount} {records : List FileRecord}
    (h : m.enumerate = .ok records) : m.enter = .ok () := by
  cases entered : m.enter with
  | error fault =>
      rw [enumerate, regularFiles, readDirectory, entered] at h
      exact nomatch h
  | ok u => rfl

/-- A manifest has the names that are shown. -/
theorem mem_enumerate {m : Mount} {records : List FileRecord} (h : m.enumerate = .ok records)
    {name : String} : name ∈ records.map FileRecord.name ↔ ∃ f, m.Shows name f := by
  have files := regularFiles_of_enter (enter_of_enumerate h)
  rw [enumerate, files] at h
  dsimp only at h
  split at h
  · exact nomatch h
  rename_i unordered looked
  cases h
  have same := List.mergeSort_perm unordered fun a b => decide (a.name ≤ b.name)
  rw [(same.map FileRecord.name).mem_iff, names_statAll looked, mem_names files]
  intro name mem
  obtain ⟨f, shows⟩ := (mem_names files).1 mem
  exact shows.statFile_ne_none

/-! ### Manifests of mounts that are alike

A manifest is made from the entries, so a change that keeps the names and what they lead to keeps
the names of the manifest.
-/

/-- A mount can be gone through like another one: it shows the same names, and what it shows that
the other one does not can be read. -/
structure Relists (m m' : Mount) : Prop where
  entered : m.enter = .ok () → m'.enter = .ok ()
  names : ∀ name, (∃ f, m'.Shows name f) ↔ ∃ f, m.Shows name f
  readable : ∀ name f, m'.Shows name f → m.Shows name f ∨ f.read = .ok f.content

section

variable {m m' m'' : Mount} {name : String} {f' : File}

theorem Relists.refl (m : Mount) : m.Relists m := ⟨id, fun _ => Iff.rfl, fun _ _ => Or.inl⟩

theorem Relists.trans (h : m.Relists m') (h' : m'.Relists m'') : m.Relists m'' where
  entered := fun entered => h'.entered (h.entered entered)
  names := fun name => (h'.names name).trans (h.names name)
  readable := by
    intro name f shows
    rcases h'.readable name f shows with before | read
    · exact h.readable name f before
    · exact Or.inr read

theorem enter_congr (place : m'.place = m.place)
    (directory : m'.tree.get? m.place = m.tree.get? m.place) : m'.enter = m.enter := by
  rw [enter, FileTree.enter, place, directory, enter, FileTree.enter]

theorem SameAs.shows_iff (h : m.SameAs m') (name : String) (f : File) :
    m'.Shows name f ↔ m.Shows name f := by
  constructor
  · rintro ⟨present, shown, p, leads⟩
    exact ⟨h.get?_eq _ ▸ present, shown, p, h.locate_eq name ▸ leads⟩
  · rintro ⟨present, shown, p, leads⟩
    exact ⟨(h.get?_eq (.text name)).symm ▸ present, shown, p, (h.locate_eq name).symm ▸ leads⟩

theorem SameAs.relists (h : m.SameAs m') : m.Relists m' where
  entered := fun entered => (enter_congr h.place (h.nodes _)).trans entered
  names := fun name => exists_congr (h.shows_iff name)
  readable := fun name f shows => Or.inl ((h.shows_iff name f).1 shows)

/-- Names that led to a file lead to one after an entry has become another file: to that one, or
where they led before. -/
theorem Refilled.shows (h : m.Refilled name f' m') {other : String} {f : File}
    (shows : m.Shows other f) : ∃ g, m'.Shows other g ∧ (g = f' ∨ g = f) := by
  obtain ⟨present, shown, p, leads⟩ := shows
  obtain ⟨node, leads', elsewhere⟩ := h.locate leads
  have present' : (m'.get? (.text other)).isSome := by
    by_cases same : EntryName.text other = .text name
    · rw [same, h.puts.entry]
      rfl
    · rw [h.puts.get?_ne same]
      exact present
  by_cases here : p = m.placeOf (.text name)
  · have file := get?_of_locate leads'
    have entry := h.puts.entry
    rw [get?, placeOf, h.puts.place] at entry
    rw [here] at file leads'
    obtain rfl : node = .file f' := Option.some.inj (file.symm.trans entry)
    exact ⟨f', ⟨present', shown, _, leads'⟩, Or.inl rfl⟩
  · rw [elsewhere here] at leads'
    exact ⟨f, ⟨present', shown, p, leads'⟩, Or.inr rfl⟩

theorem Refilled.relists (h : m.Refilled name f' m') (read : f'.read = .ok f'.content) :
    m.Relists m' where
  entered := fun entered =>
    (enter_congr h.puts.place (h.puts.others _ fun same => m.placeOf_ne_place _ same.symm)).trans
      entered
  names := by
    intro other
    constructor
    · rintro ⟨f, shows⟩
      obtain ⟨f₀, back⟩ := h.symm
      obtain ⟨g, shows', -⟩ := back.shows shows
      exact ⟨g, shows'⟩
    · rintro ⟨f, shows⟩
      obtain ⟨g, shows', -⟩ := h.shows shows
      exact ⟨g, shows'⟩
  readable := by
    intro other f shows
    obtain ⟨f₀, back⟩ := h.symm
    obtain ⟨g, shows', -⟩ := back.shows shows
    -- What is found is the new file, or what was found before.
    obtain ⟨g', shows'', which⟩ := h.shows shows'
    obtain ⟨p, leads⟩ := shows.leads
    obtain ⟨p', leads'⟩ := shows''.leads
    cases leads.symm.trans leads'
    rcases which with rfl | rfl
    · exact Or.inr read
    · exact Or.inl shows'

/-- A mount that can be gone through alike has a manifest of the same names. -/
theorem Relists.enumerate (h : m.Relists m') {records : List FileRecord}
    (made : m.enumerate = .ok records) :
    ∃ records', m'.enumerate = .ok records' ∧
      (records'.map FileRecord.name).Perm (records.map FileRecord.name) := by
  have entered := enter_of_enumerate made
  have usable := (enumerate_ok_iff entered).1 ⟨records, made⟩
  obtain ⟨records', made'⟩ := (enumerate_ok_iff (h.entered entered)).2 fun name f shows => by
    obtain ⟨g, before⟩ := (h.names name).1 ⟨f, shows⟩
    refine ⟨(usable name g before).1, ?_⟩
    rcases h.readable name f shows with before | read
    · exact (usable name f before).2
    · exact read
  refine ⟨records', made', ?_⟩
  rw [List.perm_ext_iff_of_nodup (enumerate_spec made').2 (enumerate_spec made).2]
  intro name
  rw [mem_enumerate made', mem_enumerate made, h.names]

/-! ### Mounts that always have a manifest -/

/-- Calls can use every name, but for those of temporary files, and every file that is found can be
read. -/
structure Listable (m : Mount) : Prop where
  entered : m.enter = .ok ()
  named : ∀ name, (m.get? (.text name)).isSome → isPartial name = false → accepts name = true
  readable : ∀ name f, m.Shows name f → f.read = .ok f.content
  few : m.entries.length < 2 ^ 64

/-- Mounts with the same names have as many entries. -/
theorem length_entries (present : ∀ entry, (m'.get? entry).isSome ↔ (m.get? entry).isSome) :
    m'.entries.length = m.entries.length := by
  have names : (m'.entries.map Prod.fst).Perm (m.entries.map Prod.fst) := by
    rw [List.perm_ext_iff_of_nodup m'.nodup_entries m.nodup_entries]
    intro entry
    rw [mem_entries_iff, mem_entries_iff, present]
  have length := names.length_eq
  rwa [List.length_map, List.length_map] at length

/-- A manifest has no more records than the mount has entries. -/
theorem length_enumerate_le {records : List FileRecord} (made : m.enumerate = .ok records) :
    records.length ≤ m.entries.length := by
  have distinct : ((records.map FileRecord.name).map EntryName.text).Nodup :=
    List.pairwise_map.2 ((enumerate_spec made).2.imp fun different same =>
      different (EntryName.text.inj same))
  have among : (records.map FileRecord.name).map EntryName.text ⊆ m.entries.map Prod.fst := by
    intro entry mem
    obtain ⟨name, listed, rfl⟩ := List.mem_map.1 mem
    obtain ⟨f, shows⟩ := (mem_enumerate made).1 listed
    exact (m.mem_entries_iff _).2 shows.present
  simpa using (List.subperm_of_subset distinct among).length_le

theorem Listable.enumerate (h : m.Listable) :
    ∃ records, m.enumerate = .ok records ∧ records.length < 2 ^ 64 := by
  obtain ⟨records, made⟩ := (enumerate_ok_iff h.entered).2 fun name f shows =>
    ⟨h.named name shows.present shows.shown, h.readable name f shows⟩
  exact ⟨records, made, Nat.lt_of_le_of_lt (length_enumerate_le made) h.few⟩

theorem Listable.same (h : m.Listable) (same : m.SameAs m') : m'.Listable where
  entered := (enter_congr same.place (same.nodes _)).trans h.entered
  named := fun name present => h.named name (same.get?_eq (.text name) ▸ present)
  readable := fun name f shows => h.readable name f ((same.shows_iff name f).1 shows)
  few := by
    have present : ∀ entry, (m'.get? entry).isSome ↔ (m.get? entry).isSome := by
      intro entry
      rw [same.get?_eq]
    rw [length_entries present]
    exact h.few

/-- A mount of ordinary entries always has a manifest if calls can use their names. -/
theorem Ordinary.listable (h : m.Ordinary) (entered : m.enter = .ok ())
    (named : ∀ name, (m.get? (.text name)).isSome → isPartial name = false → accepts name = true)
    (few : m.entries.length < 2 ^ 64) : m.Listable where
  entered := entered
  named := named
  readable := by
    rintro name f ⟨present, shown, p, leads⟩
    obtain ⟨node, entry⟩ := Option.isSome_iff_exists.1 present
    have here := h.isOrdinary entry
    have admits := Admits.of_locate (named name present shown) leads
    cases (admits.locate_entry entry (Node.isLink_of_isOrdinary here)).symm.trans leads
    exact (Node.isPlain_of_isOrdinary here).read
  few := few

/-- A content that is put under a name that was there can be read. -/
theorem Listable.placed (h : m.Listable) {now : UnixTime} {content : Bytes}
    (placed : m.Placed now name content m') (there : (m.get? (.text name)).isSome) :
    m'.Listable := by
  obtain ⟨f, puts, -, -, kept⟩ := placed.entry
  have present : ∀ entry, (m'.get? entry).isSome ↔ (m.get? entry).isSome := by
    intro entry
    by_cases same : entry = .text name
    · rw [same, puts.entry]
      exact iff_of_true rfl there
    · rw [puts.get?_ne same]
  refine ⟨?_, fun other shown => h.named other ((present _).1 shown), ?_, ?_⟩
  · refine (enter_congr puts.place ?_).trans h.entered
    exact puts.others _ fun same => m.placeOf_ne_place _ same.symm
  · rintro other g ⟨shown, whole, p, leads⟩
    rcases puts.locate_eq placed.free (Or.inr ⟨f, rfl⟩) leads with before | ⟨-, new⟩
    · exact h.readable other g ⟨(present _).1 shown, whole, p, before⟩
    · cases new
      rw [File.read, kept]
  · rw [length_entries present]
    exact h.few

end

end Mount

end MountSync
