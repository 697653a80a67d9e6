/-
What a pass does to both sides.

The manifest of a pass can be old, or it can be made up.  It decides which transfer is tried for a
name, and no more: whether the copy on the other side gives way is decided there, with what is there
by then.  So whatever list a pass is given, each of its entries is copied in one direction, over a
copy that gives way, or nothing happens.

Nobody else works on the server during the pass.  Calls may still fail in every way in which they
can.
-/
import MountSync.Proofs.Cluster.Transfer
import MountSync.Sync.Pass

namespace MountSync

namespace Site

/-! ### A pass, entry by entry

Passes over a manifest and batches of local changes have the same shape, so there is one induction
for both.
-/

section

variable {σ α : Type} (entry : Site σ → α → Site σ × Booking) (nameOf : α → String)

/-- Goes through a list and books what becomes of each entry.  A pass over a manifest and a batch of
local changes both do. -/
def through : Site σ → Report → List α → Site σ × Report
  | x, report, [] => (x, report)
  | x, report, a :: rest =>
    through (entry x a).1 (report.book (nameOf a) (entry x a).2) rest

theorem through_append (before after : List α) :
    ∀ (x : Site σ) (report : Report),
      through entry nameOf x report (before ++ after)
        = through entry nameOf (through entry nameOf x report before).1
          (through entry nameOf x report before).2 after := by
  induction before with
  | nil =>
      intro x report
      rfl
  | cons a rest ih =>
      intro x report
      exact ih _ _

theorem mem_stored_book {report : Report} {name other : String} {b : Booking}
    (mem : other ∈ (report.book name b).stored) :
    other ∈ report.stored ∨ other = name ∧ b = .stored := by
  cases b with
  | stored =>
      rcases List.mem_append.1 mem with before | now
      · exact Or.inl before
      · exact Or.inr ⟨List.mem_singleton.1 now, rfl⟩
  | _ => exact Or.inl mem

variable {entry nameOf} {P : List α → Site σ → Prop} {Q : Site σ → String → Prop} {list : List α}

/-- What each entry preserves with those that are left, and what it brings about where it is booked
as stored, is so for the whole list. -/
theorem through_induction
    (step : ∀ y a rest, P (a :: rest) y → P rest (entry y a).1 ∧
      ((entry y a).2 = .stored → Q (entry y a).1 (nameOf a)) ∧
      ∀ name, Q y name → Q (entry y a).1 name)
    {x : Site σ} (start : P list x) {report : Report} (booked : ∀ name ∈ report.stored, Q x name) :
    P [] (through entry nameOf x report list).1 ∧
      ∀ name ∈ (through entry nameOf x report list).2.stored,
        Q (through entry nameOf x report list).1 name := by
  induction list generalizing x report with
  | nil => exact ⟨start, booked⟩
  | cons a rest ih =>
      obtain ⟨next, stored, kept⟩ := step x a rest start
      refine ih next ?_
      intro name mem
      rcases mem_stored_book mem with before | ⟨rfl, now⟩
      · exact kept name (booked name before)
      · exact stored now

end

section

variable {σ : Type} (p : Peer σ) (x : Site σ)

theorem reconcileFrom_eq (manifest : List FileRecord) :
    ∀ (x : Site σ) (report : Report), x.reconcileFrom p report manifest
      = through (reconcileEntry p) FileRecord.name x report manifest := by
  induction manifest with
  | nil =>
      intro x report
      rfl
  | cons r rest ih =>
      intro x report
      exact ih _ _

theorem applyFrom_eq (changes : List Watch.LocalChange) :
    ∀ (x : Site σ) (report : Report), x.applyFrom p report changes
      = through (applyChange p) Watch.LocalChange.name x report changes := by
  induction changes with
  | nil =>
      intro x report
      rfl
  | cons change rest ih =>
      intro x report
      exact ih _ _

/-- A pass over one more entry is the pass, and then the entry. -/
theorem reconcile_concat (before : List FileRecord) (r : FileRecord) :
    (x.reconcile p (before ++ [r])).1 = ((x.reconcile p before).1.reconcileEntry p r).1 := by
  rw [reconcile, reconcile, reconcileFrom_eq, reconcileFrom_eq, through_append]
  rfl

/-- What each entry preserves a pass preserves. -/
theorem reconcile_induction {P : Site σ → Prop} {manifest : List FileRecord}
    (step : ∀ (y : Site σ) (r : FileRecord), r ∈ manifest → P y → P (y.reconcileEntry p r).1)
    (start : P x) : P (x.reconcile p manifest).1 := by
  rw [reconcile, reconcileFrom_eq]
  refine (through_induction (Q := fun _ _ => True)
    (P := fun rest y => (∀ r ∈ rest, r ∈ manifest) ∧ P y) ?_ ⟨fun _ mem => mem, start⟩
    fun _ _ => trivial).1.2
  rintro y r rest ⟨left, h⟩
  obtain ⟨mem, others⟩ := List.forall_mem_cons.1 left
  exact ⟨⟨others, step y r mem h⟩, fun _ => trivial, fun _ _ => trivial⟩

/-- An entry is passed over, or fetched, or stored if the client's copy is different and newer than
what the manifest says. -/
inductive EntryGoes (r : FileRecord) : Site σ × Booking → Prop
  | passed {b : Booking} : b ≠ .stored → EntryGoes r (x, b)
  | fetched : EntryGoes r
      ((x.fetch p r.name).1, .ofResult .fetched (x.fetch p r.name).2)
  | stored {mine : FileRecord} : x.mount.statFile r.name = .ok (some mine) →
      mine.checksum ≠ r.checksum → r.mtime < mine.mtime →
      EntryGoes r ((x.store p r.name).1, .ofResult .stored (x.store p r.name).2)

theorem entryGoes (r : FileRecord) : x.EntryGoes p r (x.reconcileEntry p r) := by
  unfold reconcileEntry localRecord
  cases stat : x.mount.statFile r.name with
  | error failure => exact .passed nofun
  | ok mine =>
      dsimp only
      cases mine with
      | none => exact .fetched
      | some mine =>
          by_cases same : mine.checksum = r.checksum
          · rw [plan_of_same same]
            exact .passed nofun
          by_cases newer : r.mtime < mine.mtime
          · rw [plan_of_newer same newer]
            exact .stored stat same newer
          by_cases older : mine.mtime < r.mtime
          · rw [plan_of_older same older]
            exact .fetched
          · have equal := Int64.le_antisymm (Int64.not_lt.1 newer) (Int64.not_lt.1 older)
            rw [plan_of_equal same equal]
            exact .passed nofun

end

end Site

/-! ### What is left alone

An entry is about one name.  Under all other names there is after it what there was before it.
-/

/-- Only files under the given names have changed, and what was there is still there: a directory as
it was, and anything else as it was or as a file. -/
structure Mount.Spares (names : List String) (m m' : Mount) : Prop where
  place : m'.place = m.place
  others : ∀ p, (∀ name ∈ names, accepts name = true → p ≠ m.placeOf (.text name)) →
    m'.tree.get? p = m.tree.get? p
  present : ∀ p node, m.tree.get? p = some node → m'.tree.get? p = some node ∨
    node ≠ .directory ∧ ∃ f, m'.tree.get? p = some (.file f)

namespace Mount

variable {m m' m'' : Mount} {names : List String} {name : String}

theorem SameAs.spares (h : m.SameAs m') : m.Spares names m' where
  place := h.place
  others := fun p _ => h.nodes p
  present := fun p _ there => Or.inl ((h.nodes p).trans there)

theorem Spares.trans (h : m.Spares names m') (h' : m'.Spares names m'') : m.Spares names m'' where
  place := h'.place.trans h.place
  others := by
    intro p other
    refine (h'.others p ?_).trans (h.others p other)
    intro name mem accepted
    rw [placeOf, h.place]
    exact other name mem accepted
  present := by
    intro p node there
    rcases h.present p node there with same | ⟨notDirectory, f, file⟩
    · exact h'.present p node same
    · refine Or.inr ⟨notDirectory, ?_⟩
      rcases h'.present p _ file with same | ⟨-, replaced⟩
      · exact ⟨f, same⟩
      · exact replaced

theorem Spares.entry (h : m.Spares names m') {entry : EntryName} {node : Node}
    (there : m.get? entry = some node) :
    m'.get? entry = some node ∨ node ≠ .directory ∧ ∃ f, m'.get? entry = some (.file f) := by
  rw [Mount.get?, placeOf, h.place]
  exact h.present _ node there

/-- A copy changes the one file. -/
theorem Copies.spares {source : Mount} {now : UnixTime} (h : source.Copies name now m m')
    (mem : name ∈ names) : m.Spares names m' := by
  obtain ⟨-, g, -, -, -, free, f, puts, -, -, -⟩ := h.copied
  refine ⟨puts.place, ?_, ?_⟩
  · intro p other
    exact puts.others p (other name mem h.accepted)
  · intro p node there
    by_cases entry : p = m.placeOf (.text name)
    · refine Or.inr ⟨?_, f, ?_⟩
      · intro directory
        rw [entry, directory] at there
        exact free there
      · have file := puts.entry
        rwa [get?, placeOf, puts.place, ← placeOf, ← entry] at file
    · exact Or.inl ((puts.others p entry).trans there)

end Mount

/-! ### Nobody else is there -/

namespace Shared

/-- Whether nobody else will come to the server. -/
def Alone (w : Shared) : Prop := ∀ p ∈ w.coming, p.before = []

theorem Alone.met_eq {w : Shared} (h : w.Alone) : w.met = w := by
  refine met_of_alone ?_
  unfold next
  cases coming : w.coming with
  | nil => rfl
  | cons p rest => exact h p (coming ▸ List.mem_cons_self ..)

theorem Alone.goes {w w' : Shared} {frames : List ClientFrame} (h : w.Alone)
    (goes : w.Goes frames w') : w'.Alone := by
  intro p mem
  rw [goes.coming] at mem
  exact h p (List.mem_of_mem_tail mem)

end Shared

namespace Site

/-- What becomes of one entry of a pass: nothing, or the one side gets the copy of the other one. -/
inductive Moves (name : String) (x x' : Site Shared) : Prop
  | kept : x.mount.SameAs x'.mount → x.world.mount.SameAs x'.world.mount → Moves name x x'
  | fetched {now : UnixTime} : x.world.mount.Copies name now x.mount x'.mount →
      x.world.mount.SameAs x'.world.mount → Moves name x x'
  | stored {now : UnixTime} : x.mount.SameAs x'.mount →
      x.mount.Copies name now x.world.mount x'.world.mount → Moves name x x'

/-- A client of short name that has the server for itself. -/
structure Alone (x : Site Shared) : Prop where
  named : Frame.TextFits x.name
  world : x.world.Alone

variable {x : Site Shared} {name : String}

theorem Alone.goes {x' : Site Shared} {frames : List ClientFrame} (h : x.Alone)
    (config : x'.config = x.config) (goes : x.world.Goes frames x'.world) : x'.Alone where
  named := by
    rw [Site.name, ← Site.config, config]
    exact h.named
  world := h.world.goes goes

/-- What is sent to a server that nobody else uses. -/
theorem Alone.sends {x' : Site Shared} {result : Except Failure Unit} (h : x.Alone)
    (sends : x.Sends name x' result) : Moves name x x' ∧ x'.Alone := by
  obtain @⟨f, place, header, pieces, found, read, rfl, version, -, told, client, stores⟩ := sends
  have mount : x'.mount = x.mount := congrArg Client.mount client
  have config : x'.config = x.config := congrArg Client.config client
  cases stores with
  | refused goes same =>
      rw [h.world.met_eq] at same
      exact ⟨.kept (.of_eq mount) same, h.goes config goes⟩
  | placed served accepted stat proceeds _ placed =>
      rw [h.world.met_eq] at stat placed
      rw [told] at placed
      rw [version] at proceeds
      refine ⟨.stored (.of_eq mount) ⟨accepted, place, f, found, read, ?_, placed⟩,
        h.goes config (Or.inr served)⟩
      exact Mount.yields_of_proceed stat proceeds

theorem Alone.store (h : x.Alone) (name : String) :
    Moves name x (x.store Peer.shared name).1 ∧ (x.store Peer.shared name).1.Alone := by
  have goes := x.storeGoes h.named name
  generalize x.store Peer.shared name = r at goes ⊢
  obtain ⟨x', result⟩ := r
  cases goes with
  | spared => exact ⟨.kept (.refl _) (.refl _), h⟩
  | locked client goes server =>
      rw [h.world.met_eq] at server
      exact ⟨.kept (.of_eq (congrArg Client.mount client)) (.of_eq server),
        h.goes (congrArg Client.config client) goes⟩
  | @sent y _ _ client goes server sends =>
      rw [h.world.met_eq] at server
      obtain ⟨moves, alone⟩ := (h.goes (congrArg Client.config client) goes).sends sends
      -- The lock has changed neither mount.
      have mount : y.mount = x.mount := congrArg Client.mount client
      refine ⟨?_, alone⟩
      rcases moves with ⟨mine, its⟩ | ⟨mine, its⟩ | ⟨mine, its⟩
      · exact .kept (mount ▸ mine) (server ▸ its)
      · rw [mount, server] at mine
        exact .fetched mine (server ▸ its)
      · rw [mount, server] at its
        exact .stored (mount ▸ mine) its

/-- A store that succeeds has put in place what is told of the client's file, and the file can be read
and has as much as that. -/
theorem Alone.store_told (h : x.Alone) {place : Place} {f : File}
    (found : x.mount.locate name = .ok (place, .file f))
    (stored : (x.store Peer.shared name).2 = .ok ()) :
    f.read = .ok f.content ∧ f.told.length = (UInt64.ofNat f.size).toNat ∧
      ∃ now, x.world.mount.Placed now name f.told (x.store Peer.shared name).1.world.mount := by
  have goes := x.storeGoes h.named name
  generalize x.store Peer.shared name = r at goes stored ⊢
  obtain ⟨x', result⟩ := r
  cases stored
  cases goes with
  | @sent y _ _ client goes server sends =>
      rw [h.world.met_eq] at server
      have alone := h.goes (congrArg Client.config client) goes
      obtain @⟨f', place', header, pieces, found', read, rfl, -, size, told, -, stores⟩ := sends
      rw [show y.mount = x.mount from congrArg Client.mount client] at found'
      cases found.symm.trans found'
      cases stores with
      | placed _ _ _ _ announced placed =>
          rw [told] at announced placed
          rw [size] at announced
          rw [alone.world.met_eq, server] at placed
          exact ⟨read, announced, _, placed⟩

theorem Alone.fetch (h : x.Alone) (name : String) :
    Moves name x (x.fetch Peer.shared name).1 ∧ (x.fetch Peer.shared name).1.Alone := by
  have goes := x.fetchGoes name
  generalize x.fetch Peer.shared name = r at goes ⊢
  obtain ⟨x', result⟩ := r
  cases goes with
  | spared => exact ⟨.kept (.refl _) (.refl _), h⟩
  | refused config goes server same =>
      rw [h.world.met_eq] at server
      exact ⟨.kept same (.of_eq server), h.goes config goes⟩
  | copied config served server copies =>
      rw [h.world.met_eq] at server copies
      exact ⟨.fetched copies (.of_eq server), h.goes config (Or.inr served)⟩

theorem Alone.reconcileEntry (h : x.Alone) (r : FileRecord) :
    Moves r.name x (x.reconcileEntry Peer.shared r).1 ∧
      (x.reconcileEntry Peer.shared r).1.Alone := by
  have goes := x.entryGoes Peer.shared r
  generalize x.reconcileEntry Peer.shared r = y at goes ⊢
  cases goes with
  | passed _ => exact ⟨.kept (.refl _) (.refl _), h⟩
  | fetched => exact h.fetch r.name
  | stored _ _ _ => exact h.store r.name

/-- Only the files under one name are touched. -/
theorem Moves.spares {x' : Site Shared} (h : Moves name x x') {names : List String}
    (mem : name ∈ names) :
    x.mount.Spares names x'.mount ∧ x.world.mount.Spares names x'.world.mount := by
  cases h with
  | kept mine its => exact ⟨mine.spares, its.spares⟩
  | fetched mine its => exact ⟨mine.spares mem, its.spares⟩
  | stored mine its => exact ⟨mine.spares, its.spares mem⟩

/-- **Whatever list a pass is given, each entry is copied in one direction over a copy that gives
way, or nothing happens; nothing under any other name is touched, and nothing is removed.** -/
theorem moves_reconcile (x : Site Shared) (named : Frame.TextFits x.name)
    (alone : ∀ p ∈ x.world.coming, p.before = []) (manifest : List FileRecord) :
    (∀ before r after, manifest = before ++ r :: after →
      Moves r.name (x.reconcile Peer.shared before).1
        (x.reconcile Peer.shared (before ++ [r])).1) ∧
    x.mount.Spares (manifest.map FileRecord.name) (x.reconcile Peer.shared manifest).1.mount ∧
    x.world.mount.Spares (manifest.map FileRecord.name)
      (x.reconcile Peer.shared manifest).1.world.mount := by
  have start : x.Alone := ⟨named, alone⟩
  constructor
  · rintro before r after rfl
    rw [reconcile_concat]
    have there : (x.reconcile Peer.shared before).1.Alone := by
      refine reconcile_induction Peer.shared x ?_ start
      intro y s _ h
      exact (h.reconcileEntry s).2
    exact (there.reconcileEntry r).1
  · have all : (x.reconcile Peer.shared manifest).1.Alone ∧
        x.mount.Spares (manifest.map FileRecord.name)
          (x.reconcile Peer.shared manifest).1.mount ∧
        x.world.mount.Spares (manifest.map FileRecord.name)
          (x.reconcile Peer.shared manifest).1.world.mount := by
      refine reconcile_induction Peer.shared x (P := fun y => y.Alone ∧
        x.mount.Spares (manifest.map FileRecord.name) y.mount ∧
        x.world.mount.Spares (manifest.map FileRecord.name) y.world.mount) ?_
        ⟨start, (Mount.SameAs.refl _).spares, (Mount.SameAs.refl _).spares⟩
      rintro y r mem ⟨h, mine, its⟩
      obtain ⟨moves, h'⟩ := h.reconcileEntry r
      obtain ⟨mine', its'⟩ := moves.spares (List.mem_map_of_mem mem)
      exact ⟨h', mine.trans mine', its.trans its'⟩
    exact all.2

/-- A client with two files, at a server that has a newer copy of one of them and a third file. -/
def apart : Site Shared where
  client := ⟨.forTesting "" "" "bob", .holding [("a", [1], 9), ("b", [7], 3)]⟩
  world := .start (.holding [("b", [8, 9], 5), ("c", [2, 2], 4)]) ⟨0, 10⟩

/-- A manifest that is not the server's: the first file is said to be there, and old; there is a
name that cannot be used, and one that comes twice. -/
def madeUp : List FileRecord :=
  [⟨"a", 1, 0, 2, 2⟩, ⟨"b", 2, 0, 5, 5⟩, ⟨"../c", 2, 0, 9, 9⟩, ⟨"c", 0, 0, 1, 1⟩, ⟨"c", 0, 0, 1, 1⟩]

theorem moves_madeUp :
    Frame.TextFits apart.name ∧ (∀ p ∈ apart.world.coming, p.before = []) ∧
    (apart.reconcile Peer.shared madeUp).2.stored = ["a"] ∧
    (apart.reconcile Peer.shared madeUp).2.fetched = ["b", "c"] ∧
    (∀ before r after, madeUp = before ++ r :: after →
      Moves r.name (apart.reconcile Peer.shared before).1
        (apart.reconcile Peer.shared (before ++ [r])).1) ∧
    apart.mount.Spares (madeUp.map FileRecord.name)
      (apart.reconcile Peer.shared madeUp).1.mount ∧
    apart.world.mount.Spares (madeUp.map FileRecord.name)
      (apart.reconcile Peer.shared madeUp).1.world.mount :=
  ⟨by decide +kernel, by decide, by decide +kernel, by decide +kernel,
    moves_reconcile apart (by decide +kernel) (by decide) madeUp⟩

/-! ### Files that do not tell their size

A link can lead to a file that the machine makes up when it is read, and of which it tells no size.
What is told of it is nothing, and that is what a client receives.
-/

/-- What a client receives in a pass need not be all of the server's copy. -/
theorem received_need_not_be_whole :
    ¬ ∀ (x : Site Shared) (manifest : List FileRecord) (name : String),
      Frame.TextFits x.name → (∀ p ∈ x.world.coming, p.before = []) →
      (x.reconcile Peer.shared manifest).1.mount.contentOf? name ≠ x.mount.contentOf? name →
      (x.reconcile Peer.shared manifest).1.mount.contentOf? name
        = (x.reconcile Peer.shared manifest).1.world.mount.contentOf? name := by
  intro claim
  have whole := claim ⟨⟨.forTesting "" "" "bob", .holding []⟩, .start .unsized ⟨0, 10⟩⟩
    [⟨"f", 0, 0, 5, 5⟩] "f" (by decide +kernel) (by decide) (by decide +kernel)
  exact absurd whole (by decide +kernel)

end Site

end MountSync
