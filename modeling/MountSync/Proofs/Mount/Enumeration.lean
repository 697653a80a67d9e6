/-
The manifest is the directory.

A directory gives its entries in an order of its own, and a manifest is made from them by passing
some over, looking up the others, and putting what was found in order.  Whatever the order of the
directory, the same names pass, each is found with the same record, and records that have all
different names can be put in order in one way only.  So all that is said of a manifest is said of
the entries, and a listing made at the same time agrees with it.

What a record says of the size is what the machine tells of it, which for a file whose content is
made up when it is read says nothing.
-/
import MountSync.Proofs.Checksum
import MountSync.Proofs.Mount.Listing
import MountSync.Proofs.Text

namespace MountSync

/-! ### Lists in the order of names -/

section

variable {α : Type} (nameOf : α → String) {list list' : List α}

/-- Items of all different names, put in order, have ascending names. -/
theorem pairwise_lt_mergeSort (distinct : (list.map nameOf).Nodup) :
    (list.mergeSort fun a b => decide (nameOf a ≤ nameOf b)).Pairwise
      fun a b => nameOf a < nameOf b := by
  have sorted : (list.mergeSort fun a b => decide (nameOf a ≤ nameOf b)).Pairwise
      fun a b => nameOf a ≤ nameOf b := by
    refine (List.pairwise_mergeSort (fun a b c first second => ?_) (fun a b => ?_) list).imp
      of_decide_eq_true
    · simp only [decide_eq_true_eq] at first second ⊢
      exact String.le_trans first second
    · simpa using String.le_total (nameOf a) (nameOf b)
  have apart : (list.mergeSort fun a b => decide (nameOf a ≤ nameOf b)).Pairwise
      fun a b => nameOf a ≠ nameOf b :=
    List.pairwise_map.1 (((List.mergeSort_perm list _).map nameOf).nodup_iff.2 distinct)
  exact (sorted.and apart).imp fun ⟨le, ne⟩ => Std.lt_of_le_of_ne le ne

/-- There is one list of ascending names for each set of items. -/
theorem eq_of_ascending (ascending : list.Pairwise fun a b => nameOf a < nameOf b)
    (ascending' : list'.Pairwise fun a b => nameOf a < nameOf b)
    (same : ∀ a, a ∈ list ↔ a ∈ list') : list = list' := by
  have nodup {l : List α} (ascending : l.Pairwise fun a b => nameOf a < nameOf b) : l.Nodup := by
    refine ascending.imp fun {a b} less equal => ?_
    rw [equal] at less
    exact String.lt_irrefl _ less
  refine List.Perm.eq_of_pairwise (fun a b _ _ less greater => ?_) ascending ascending' ?_
  · exact absurd (String.lt_trans less greater) (String.lt_irrefl _)
  · exact (List.perm_ext_iff_of_nodup (nodup ascending) (nodup ascending')).2 same

end

namespace Mount

/-! ### Any order of the directory

The order is a list of the entries, and all that is known of it is that it is a permutation.
-/

variable {m : Mount} {order order' : List EntryName} {records : List FileRecord}

/-- The names that are shown, in the order in which the directory gives its entries. -/
def shownIn (m : Mount) (order : List EntryName) : List String :=
  (order.filterMap m.listed?).map Prod.fst

/-- The manifest of a directory that gives its entries in some order. -/
def enumerateIn (m : Mount) (order : List EntryName) : Except Failure (List FileRecord) :=
  match m.enter with
  | .error fault => .error (.io fault)
  | .ok () =>
    match m.statAll (m.shownIn order) with
    | .error failure => .error failure
    | .ok records => .ok (records.mergeSort fun a b => decide (a.name ≤ b.name))

/-- The listing of a directory that gives its entries in some order. -/
def listIn (m : Mount) (order : List EntryName) : Except Failure (List ListEntry) :=
  match m.enter with
  | .error fault => .error (.io fault)
  | .ok () =>
    .ok (((order.filterMap m.listed?).map fun (name, f) => ⟨name, f.modified.unixTime⟩).mergeSort
      fun a b => decide (a.name ≤ b.name))

theorem enumerate_eq_enumerateIn (m : Mount) :
    m.enumerate = m.enumerateIn (m.entries.map Prod.fst) := by
  rw [enumerate, regularFiles, readDirectory, enumerateIn]
  cases m.enter <;> rfl

theorem list_eq_listIn (m : Mount) : m.list = m.listIn (m.entries.map Prod.fst) := by
  rw [list, regularFiles, readDirectory, listIn]
  cases m.enter <;> rfl

theorem mem_listedIn (given : order.Perm (m.entries.map Prod.fst)) {name : String} {f : File} :
    (name, f) ∈ order.filterMap m.listed? ↔ m.Shows name f := by
  rw [List.mem_filterMap]
  constructor
  · rintro ⟨entry, there, listed⟩
    obtain ⟨rfl, shown, leads⟩ := listed?_iff.1 listed
    exact ⟨(m.mem_entries_iff _).1 (given.mem_iff.1 there), shown, leads⟩
  · rintro ⟨present, shown, leads⟩
    refine ⟨.text name, ?_, listed?_iff.2 ⟨rfl, shown, leads⟩⟩
    exact given.mem_iff.2 ((m.mem_entries_iff _).2 present)

theorem mem_shownIn (given : order.Perm (m.entries.map Prod.fst)) {name : String} :
    name ∈ m.shownIn order ↔ ∃ f, m.Shows name f := by
  rw [shownIn, List.mem_map]
  constructor
  · rintro ⟨⟨_, f⟩, mem, rfl⟩
    exact ⟨f, (mem_listedIn given).1 mem⟩
  · rintro ⟨f, shows⟩
    exact ⟨(name, f), (mem_listedIn given).2 shows, rfl⟩

theorem nodup_shownIn (given : order.Perm (m.entries.map Prod.fst)) :
    (m.shownIn order).Nodup := by
  have distinct : order.Nodup := given.nodup_iff.2 m.nodup_entries
  refine List.pairwise_map.2 (List.Pairwise.filterMap _ ?_ distinct)
  rintro a a' different ⟨name, f⟩ listed ⟨name', f'⟩ listed' (rfl : name = name')
  exact different ((listed?_eq_some listed).trans (listed?_eq_some listed').symm)

/-! ### Records of the names

A name is looked up apart from the others, so the records of a manifest are those of its names, one
by one.
-/

/-- The record under a name, if looking it up finds one. -/
def record? (m : Mount) (name : String) : Option FileRecord :=
  match m.statFile name with
  | .ok found => found
  | .error _ => none

theorem record?_eq_some_iff {name : String} {r : FileRecord} :
    m.record? name = some r ↔ m.statFile name = .ok (some r) := by
  unfold record?
  cases m.statFile name <;> simp

theorem statAll_eq_ok_iff {names : List String} :
    m.statAll names = .ok records ↔
      (∀ name ∈ names, ∃ found, m.statFile name = .ok found) ∧
        records = names.filterMap m.record? := by
  induction names generalizing records with
  | nil => simp [statAll, eq_comm]
  | cons name rest ih =>
    rw [statAll, List.forall_mem_cons, List.filterMap_cons, record?]
    cases stat : m.statFile name with
    | error failure => simp
    | ok found =>
      cases all : m.statAll rest with
      | error failure =>
        have refused : ¬ ∀ name ∈ rest, ∃ found, m.statFile name = .ok found := by
          rw [← statAll_ok_iff, all]
          simp
        simp [refused]
      | ok others =>
        obtain ⟨looked, rfl⟩ := ih.1 all
        cases found with
        | none | some =>
          constructor
          · rintro ⟨⟩
            exact ⟨⟨⟨_, rfl⟩, looked⟩, rfl⟩
          · rintro ⟨-, rfl⟩
            rfl

theorem enumerateIn_eq_ok_iff :
    m.enumerateIn order = .ok records ↔
      m.enter = .ok () ∧ (∀ name ∈ m.shownIn order, ∃ found, m.statFile name = .ok found) ∧
        records = ((m.shownIn order).filterMap m.record?).mergeSort
          fun a b => decide (a.name ≤ b.name) := by
  rw [enumerateIn]
  cases m.enter with
  | error fault => simp
  | ok u =>
    cases all : m.statAll (m.shownIn order) with
    | error failure =>
      have refused : ¬ ∀ name ∈ m.shownIn order, ∃ found, m.statFile name = .ok found := by
        rw [← statAll_ok_iff, all]
        simp
      simp [refused]
    | ok found =>
      obtain ⟨looked, rfl⟩ := statAll_eq_ok_iff.1 all
      constructor
      · rintro ⟨⟩
        exact ⟨rfl, looked, rfl⟩
      · rintro ⟨-, -, rfl⟩
        rfl

theorem named_of_record? {name : String} {r : FileRecord} (found : m.record? name = some r) :
    r.name = name := by
  obtain ⟨-, -, -, -, -, rfl⟩ := file_of_statFile (record?_eq_some_iff.1 found)
  rfl

/-- The records of a manifest are those of the names that are shown, whatever the order. -/
theorem mem_enumerateIn (given : order.Perm (m.entries.map Prod.fst))
    (made : m.enumerateIn order = .ok records) (r : FileRecord) :
    r ∈ records ↔ (∃ f, m.Shows r.name f) ∧ m.statFile r.name = .ok (some r) := by
  obtain ⟨-, -, rfl⟩ := enumerateIn_eq_ok_iff.1 made
  rw [List.mem_mergeSort, List.mem_filterMap, ← mem_shownIn given]
  constructor
  · rintro ⟨name, mem, found⟩
    obtain rfl := named_of_record? found
    exact ⟨mem, record?_eq_some_iff.1 found⟩
  · rintro ⟨mem, stat⟩
    exact ⟨r.name, mem, record?_eq_some_iff.2 stat⟩

theorem ascending_enumerateIn (given : order.Perm (m.entries.map Prod.fst))
    (made : m.enumerateIn order = .ok records) :
    records.Pairwise fun a b => a.name < b.name := by
  obtain ⟨-, -, rfl⟩ := enumerateIn_eq_ok_iff.1 made
  refine pairwise_lt_mergeSort FileRecord.name (List.pairwise_map.2 ?_)
  refine List.Pairwise.filterMap _ ?_ (nodup_shownIn given)
  intro name name' different r found r' found' same
  rw [named_of_record? found, named_of_record? found'] at same
  exact different same

/-- A manifest is made of what is found, put in order in whatever way. -/
theorem enumerateIn_of_statAll {found : List FileRecord} (entered : m.enter = .ok ())
    (all : m.statAll (m.shownIn order) = .ok found) (same : records.Perm found)
    (ascending : records.Pairwise fun a b => a.name < b.name) :
    m.enumerateIn order = .ok records := by
  have distinct : (found.map FileRecord.name).Nodup := by
    rw [← (same.map FileRecord.name).nodup_iff]
    refine List.pairwise_map.2 (ascending.imp fun {a b} less equal => ?_)
    rw [equal] at less
    exact String.lt_irrefl _ less
  rw [enumerateIn, entered, all]
  refine congrArg Except.ok (eq_of_ascending FileRecord.name
    (pairwise_lt_mergeSort FileRecord.name distinct) ascending fun r => ?_)
  rw [List.mem_mergeSort, same.mem_iff]

/-- **In whatever order a directory gives its entries, its manifest is the same.** -/
theorem enumerateIn_congr (given : order.Perm (m.entries.map Prod.fst))
    (given' : order'.Perm (m.entries.map Prod.fst)) (made : m.enumerateIn order = .ok records) :
    m.enumerateIn order' = .ok records := by
  obtain ⟨entered, looked, -⟩ := enumerateIn_eq_ok_iff.1 made
  have made' := enumerateIn_eq_ok_iff.2 ⟨entered, fun name mem => looked name
    ((mem_shownIn given).2 ((mem_shownIn given').1 mem)), rfl⟩
  rw [made']
  refine congrArg Except.ok (eq_of_ascending FileRecord.name (ascending_enumerateIn given' made')
    (ascending_enumerateIn given made) fun r => ?_)
  rw [mem_enumerateIn given' made', mem_enumerateIn given made]

/-! ### What a record says -/

/-- A record of a file: the size that is told of it, which is the length of its content if the file
keeps this, the checksum of the content that is read, and the time of its last change. -/
structure Describes (f : File) (r : FileRecord) : Prop where
  size : r.size = .ofNat f.size
  length : f.IsPlain → r.size.toNat = f.content.length
  read : f.read = .ok f.content
  checksum : r.checksum = MountSync.checksum f.content
  mtime : r.mtime = f.modified.unixTime

theorem describes_of_statFile {name : String} {f : File} {r : FileRecord}
    (stat : m.statFile name = .ok (some r)) (shows : m.Shows name f) : Describes f r := by
  obtain ⟨-, p, g, found, read, rfl⟩ := file_of_statFile stat
  obtain ⟨p', leads⟩ := shows.leads
  cases found.symm.trans leads
  exact ⟨rfl, File.IsPlain.toNat_size, read, fileChecksum_eq_checksum f.content, rfl⟩

/-- The entry of a listing that belongs to a record. -/
def entryOf (r : FileRecord) : ListEntry := ⟨r.name, r.mtime⟩

/-- A name that is shown has a record, if there is a manifest at all. -/
theorem exists_of_shows (given : order.Perm (m.entries.map Prod.fst))
    (made : m.enumerateIn order = .ok records) {name : String} {f : File} (shows : m.Shows name f) :
    ∃ r ∈ records, r.name = name ∧ Describes f r := by
  obtain ⟨-, looked, -⟩ := enumerateIn_eq_ok_iff.1 made
  obtain ⟨found, stat⟩ := looked name ((mem_shownIn given).2 ⟨f, shows⟩)
  cases found with
  | none => exact absurd stat shows.statFile_ne_none
  | some r =>
    obtain rfl := named_of_record? (record?_eq_some_iff.2 stat)
    exact ⟨r, (mem_enumerateIn given made r).2 ⟨⟨f, shows⟩, stat⟩, rfl,
      describes_of_statFile stat shows⟩

/-- **A listing has the names and the times of the manifest.** -/
theorem listIn_of_enumerateIn (given : order.Perm (m.entries.map Prod.fst))
    (given' : order'.Perm (m.entries.map Prod.fst)) (made : m.enumerateIn order = .ok records) :
    m.listIn order' = .ok (records.map entryOf) := by
  obtain ⟨entered, -, -⟩ := enumerateIn_eq_ok_iff.1 made
  rw [listIn, entered]
  refine congrArg Except.ok (eq_of_ascending ListEntry.name ?_ ?_ fun e => ?_)
  · refine pairwise_lt_mergeSort ListEntry.name ?_
    rw [List.map_map]
    exact nodup_shownIn given'
  · exact List.pairwise_map.2 (ascending_enumerateIn given made)
  rw [List.mem_mergeSort, List.mem_map, List.mem_map]
  constructor
  · rintro ⟨⟨name, f⟩, mem, rfl⟩
    obtain ⟨r, there, rfl, describes⟩ := exists_of_shows given made ((mem_listedIn given').1 mem)
    exact ⟨r, there, by rw [entryOf, describes.mtime]⟩
  · rintro ⟨r, there, rfl⟩
    obtain ⟨⟨f, shows⟩, stat⟩ := (mem_enumerateIn given made r).1 there
    refine ⟨(r.name, f), (mem_listedIn given').2 shows, ?_⟩
    rw [entryOf, (describes_of_statFile stat shows).mtime]

/--
**The manifest is the directory.**  In whatever order a directory gives its entries: if there is a
manifest its names ascend by their bytes, and they are those of the entries that are shown; each
record is what looking up its name finds, and tells of the file that the name leads to; and a listing
has the same names and times.
-/
theorem manifest_of_directory {m : Mount} {order : List EntryName} {records : List FileRecord}
    (given : order.Perm (m.entries.map Prod.fst)) (made : m.enumerateIn order = .ok records) :
    m.enumerate = .ok records ∧
    (records.map fun r => Frame.textBytes r.name).Pairwise (· < ·) ∧
    (∀ name, name ∈ records.map FileRecord.name ↔ ∃ f, m.Shows name f) ∧
    (∀ r ∈ records, m.statFile r.name = .ok (some r) ∧ ∃ f, m.Shows r.name f ∧ Describes f r) ∧
    m.list = .ok (records.map entryOf) ∧
    ∀ order' : List EntryName, order'.Perm (m.entries.map Prod.fst) →
      m.listIn order' = .ok (records.map entryOf) := by
  have own : m.enumerate = .ok records := by
    rw [enumerate_eq_enumerateIn]
    exact enumerateIn_congr given (.refl _) made
  refine ⟨own, ?_, ?_, ?_, ?_, ?_⟩
  · exact List.pairwise_map.2 ((ascending_enumerateIn given made).imp Frame.textBytes_lt)
  · intro name
    exact mem_enumerate own
  · intro r mem
    obtain ⟨⟨f, shows⟩, stat⟩ := (mem_enumerateIn given made r).1 mem
    exact ⟨stat, f, shows, describes_of_statFile stat shows⟩
  · rw [list_eq_listIn]
    exact listIn_of_enumerateIn given (.refl _) made
  · intro order' given'
    exact listIn_of_enumerateIn given given' made

/-- A directory with some of everything: files, one of them hidden, a directory, a name that is no
text, and links to a file, to a directory, to nowhere, to themselves, and to a file of six bytes that
is said to have none. -/
def motley : Mount where
  place := [.text "mnt"]
  tree :=
    let file (content : Bytes) (inode : Nat) (facade : Option Facade) : Node :=
      .file ⟨content, .atSecond 5, inode, facade⟩
    [(EntryName.text "b", file [98, 98] 0 none), (.text "dir", .directory),
      (.text ".dfsync-x.part", file [1] 1 none), (.binary [255], file [2] 2 none),
      (.text "to a file", .link "b"), (.text "to a directory", .link "dir"),
      (.text "to nowhere", .link "gone"), (.text "to itself", .link "to itself"),
      (.text "to the system", .link "/ostype"), (.text "a", file [97] 3 none)].foldl
      (fun t e => t.put [e.1, .text "mnt"] e.2)
      ((FileTree.bare.put [.text "mnt"] .directory).put [.text "ostype"]
        (file [76, 105, 110, 117, 120, 10] 4 (some ⟨0, none⟩)))

/-- What the manifest of such a directory has. -/
def motleyRecords : List FileRecord :=
  [⟨"a", 1, checksum [97], 5, 5⟩, ⟨"b", 2, checksum [98, 98], 5, 5⟩,
    ⟨"to a file", 2, checksum [98, 98], 5, 5⟩,
    ⟨"to the system", 0, checksum [76, 105, 110, 117, 120, 10], 5, 5⟩]

/-- The entries of the directory in the order in which they came to be. -/
def motleyOrder : List EntryName := (motley.tree.children motley.place).map Prod.fst

theorem motleyOrder_perm : motleyOrder.Perm (motley.entries.map Prod.fst) :=
  ((motley.tree.listing_perm motley.place).map Prod.fst).symm

theorem enumerateIn_motleyOrder : motley.enumerateIn motleyOrder = .ok motleyRecords := by
  have all : motley.statAll (motley.shownIn motleyOrder)
      = .ok [⟨"a", 1, checksum [97], 5, 5⟩,
        ⟨"to the system", 0, checksum [76, 105, 110, 117, 120, 10], 5, 5⟩,
        ⟨"to a file", 2, checksum [98, 98], 5, 5⟩, ⟨"b", 2, checksum [98, 98], 5, 5⟩] := by
    decide +kernel
  exact enumerateIn_of_statAll rfl all (by decide +kernel) (by decide +kernel)

theorem manifest_of_motley :
    motleyOrder.Perm (motley.entries.map Prod.fst) ∧
    motley.enumerateIn motleyOrder = .ok motleyRecords ∧
    motley.enumerate = .ok motleyRecords ∧ motley.list = .ok (motleyRecords.map entryOf) := by
  obtain ⟨own, -, -, -, listed, -⟩ :=
    manifest_of_directory motleyOrder_perm enumerateIn_motleyOrder
  exact ⟨motleyOrder_perm, enumerateIn_motleyOrder, own, listed⟩

/-- The size of a record need not be the length of the content that is read. -/
theorem size_need_not_be_length :
    ¬ ∀ (m : Mount) (records : List FileRecord), m.enumerate = .ok records → ∀ r ∈ records,
      ∀ content, m.contentOf? r.name = some content → r.size.toNat = content.length := by
  intro claim
  have made : motley.enumerate = .ok motleyRecords := by
    rw [enumerate_eq_enumerateIn]
    exact enumerateIn_congr motleyOrder_perm (.refl _) enumerateIn_motleyOrder
  have length := claim motley motleyRecords made
    ⟨"to the system", 0, checksum [76, 105, 110, 117, 120, 10], 5, 5⟩
    (by simp [motleyRecords]) [76, 105, 110, 117, 120, 10] (by decide +kernel)
  exact absurd length (by decide)

end Mount

end MountSync
