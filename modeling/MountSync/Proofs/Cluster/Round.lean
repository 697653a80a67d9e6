/-
A round that nothing gets in the way of.

Such a round hears all of the server's manifest and goes through it.  The names in it are distinct,
so each file has one entry, and all the other entries leave the file as it is.  What a round comes to
for a file is therefore told by that one entry: it meets what there was before the round, it is
booked under its name, and what it leaves is there after the round.
-/
import MountSync.Proofs.Cluster.Entry

namespace MountSync

/-! ### Reports

A report has a list for each way in which a name can be booked.  Seen from one name it comes to one
of these lists, or to none.
-/

namespace Report

/-- The entries of which the same became. -/
def under (r : Report) : Booking → List String
  | .fetched => r.fetched
  | .stored => r.stored
  | .deleted => r.deleted
  | .skipped => r.skipped
  | .anomaly => r.anomalies
  | .failed => r.failed

theorem under_book_self (r : Report) (name : String) (b : Booking) :
    (r.book name b).under b = r.under b ++ [name] := by
  cases b <;> rfl

theorem under_book_ne (r : Report) (name : String) {b b' : Booking} (h : b' ≠ b) :
    (r.book name b).under b' = r.under b' := by
  cases b <;> cases b' <;> first | rfl | exact absurd rfl h

theorem mem_under_book_of_ne (r : Report) {name other : String} (different : other ≠ name)
    (b b' : Booking) : name ∈ (r.book other b).under b' ↔ name ∈ r.under b' := by
  by_cases h : b' = b
  · rw [h, under_book_self, List.mem_append, List.mem_singleton]
    exact or_iff_left different.symm
  · rw [under_book_ne r other h]

/-- A name is booked in one way and in no other. -/
def Books (r : Report) (name : String) (b : Booking) : Prop := ∀ b', name ∈ r.under b' ↔ b' = b

/-- A name that was not booked yet is booked in one way. -/
theorem books_book {r : Report} {name : String} (unbooked : ∀ b, name ∉ r.under b) (b : Booking) :
    (r.book name b).Books name b := by
  intro b'
  by_cases h : b' = b
  · rw [h, under_book_self]
    exact iff_of_true (List.mem_append_right _ (List.mem_singleton_self _)) rfl
  · rw [under_book_ne r name h]
    exact iff_of_false (unbooked b') h

theorem not_mem_under_empty (name : String) (b : Booking) : name ∉ Report.empty.under b := by
  cases b <;> exact List.not_mem_nil

/-- To pass an entry over does not end the quiet. -/
theorem isQuiet_book_skipped (r : Report) (name : String) :
    (r.book name .skipped).isQuiet = r.isQuiet := rfl

end Report

/-- A manifest has the record of a file of the mount. -/
theorem Mount.Has.record_mem {m : Mount} {name : String} {f : File} (h : m.Has name f)
    {records : List FileRecord} (made : m.enumerate = .ok records) :
    recordOf name f f.content ∈ records := by
  have shows : m.Shows name f := by
    refine ⟨?_, (accepts_iff.1 h.admits.accepted).2.2, _, h.locate⟩
    rw [h.entry]
    rfl
  obtain ⟨r, mem, same⟩ := List.mem_map.1 ((mem_enumerate made).2 ⟨f, shows⟩)
  have stat := (enumerate_spec made).1 r mem
  rw [same, h.stat] at stat
  cases stat
  exact mem

namespace Site

/-! ### Passes

What comes before the entry of a file leaves the file as it is, and so does what comes after it.
-/

section

variable {σ α : Type} (entry : Site σ → α → Site σ × Booking) (nameOf : α → String)

theorem mem_under_through_of_ne {name : String} {list : List α}
    (others : ∀ a ∈ list, nameOf a ≠ name) (x : Site σ) (report : Report) (b : Booking) :
    name ∈ (through entry nameOf x report list).2.under b ↔ name ∈ report.under b := by
  induction list generalizing x report with
  | nil => exact Iff.rfl
  | cons a rest ih =>
      obtain ⟨first, others⟩ := List.forall_mem_cons.1 others
      exact (ih others _ _).trans (report.mem_under_book_of_ne first _ b)

/-- Each entry of a name of its own is booked under what became of it. -/
theorem books_through {before after : List α} {a : α} (earlier : ∀ b ∈ before, nameOf b ≠ nameOf a)
    (later : ∀ b ∈ after, nameOf b ≠ nameOf a) (x : Site σ) :
    (through entry nameOf x .empty (before ++ a :: after)).2.Books (nameOf a)
      (entry (through entry nameOf x .empty before).1 a).2 := by
  intro b
  rw [through_append, through, mem_under_through_of_ne entry nameOf later]
  refine Report.books_book (fun b' mem => ?_) _ b
  rw [mem_under_through_of_ne entry nameOf earlier] at mem
  exact Report.not_mem_under_empty _ b' mem

variable {entry nameOf}

/-- A pass in which every entry is passed over is quiet, and leaves what each of them leaves. -/
theorem quiet_through {P : Site σ → Prop} {list : List α}
    (step : ∀ y, ∀ a ∈ list, P y → (entry y a).2 = .skipped ∧ P (entry y a).1) {x : Site σ}
    (start : P x) {report : Report} (quiet : report.isQuiet = true) :
    (through entry nameOf x report list).2.isQuiet = true ∧
      P (through entry nameOf x report list).1 := by
  induction list generalizing x report with
  | nil => exact ⟨quiet, start⟩
  | cons a rest ih =>
      obtain ⟨skipped, next⟩ := step x a (List.mem_cons_self ..) start
      refine ih (fun y b mem => step y b (List.mem_cons_of_mem a mem)) next ?_
      rw [skipped, Report.isQuiet_book_skipped]
      exact quiet

end

variable {x : Site Shared} {name : String} {manifest records : List FileRecord} {r : FileRecord}

/-- A pass over other names leaves a file as it is. -/
theorem Calm.through_agrees (calm : x.Calm) (named : Frame.TextFits x.name)
    (others : ∀ r ∈ manifest, r.name ≠ name) (report : Report) :
    x.Agrees name
      (through (reconcileEntry Peer.shared) FileRecord.name x report manifest).1 := by
  induction manifest generalizing x report with
  | nil => exact .refl name x
  | cons r rest ih =>
      obtain ⟨first, others⟩ := List.forall_mem_cons.1 others
      have agrees := calm.reconcileEntry_agrees named first
      exact agrees.trans (ih (agrees.calm calm) (agrees.named ▸ named) others _)

/-- **In a pass the entry of a file meets what there was of the file before the pass, is booked as
what became of it, and what it leaves is there after the pass.** -/
theorem Calm.reconcile_turn (calm : x.Calm) (named : Frame.TextFits x.name)
    {before after : List FileRecord}
    (distinct : ((before ++ r :: after).map FileRecord.name).Nodup) :
    let y := (x.reconcile Peer.shared before).1
    x.Agrees r.name y ∧ y.Calm ∧
      (y.reconcileEntry Peer.shared r).1.Agrees r.name
        (x.reconcile Peer.shared (before ++ r :: after)).1 ∧
      (x.reconcile Peer.shared (before ++ r :: after)).2.Books r.name
        (y.reconcileEntry Peer.shared r).2 := by
  rw [List.map_append, List.map_cons, List.nodup_append] at distinct
  obtain ⟨-, distinct, apart⟩ := distinct
  have earlier : ∀ b ∈ before, b.name ≠ r.name :=
    fun b mem => apart _ (List.mem_map_of_mem mem) _ (List.mem_cons_self ..)
  have later : ∀ a ∈ after, a.name ≠ r.name :=
    fun a mem same => (List.nodup_cons.1 distinct).1 (same ▸ List.mem_map_of_mem mem)
  dsimp only
  rw [reconcile, reconcile, reconcileFrom_eq, reconcileFrom_eq]
  have agrees := calm.through_agrees named earlier .empty
  refine ⟨agrees, agrees.calm calm, ?_, books_through _ _ earlier later x⟩
  have calm' := agrees.calm calm
  have named' : Frame.TextFits _ := agrees.named ▸ named
  obtain ⟨config, onward⟩ := calm'.reconcileEntry_onward named' r
  rw [through_append, through]
  refine (calm_of_onward config onward calm').through_agrees ?_ later _
  rw [Site.name, ← Site.config, config]
  exact named'

/-- Every entry of a pass has its turn. -/
theorem Calm.reconcile_entry (calm : x.Calm) (named : Frame.TextFits x.name)
    (distinct : (manifest.map FileRecord.name).Nodup) (mem : r ∈ manifest) :
    ∃ y, x.Agrees r.name y ∧ y.Calm ∧
      (y.reconcileEntry Peer.shared r).1.Agrees r.name
        (x.reconcile Peer.shared manifest).1 ∧
      r.name ∈ (x.reconcile Peer.shared manifest).2.under
        (y.reconcileEntry Peer.shared r).2 := by
  obtain ⟨before, after, rfl⟩ := List.append_of_mem mem
  obtain ⟨agrees, calm', onward, books⟩ := calm.reconcile_turn named distinct
  exact ⟨_, agrees, calm', onward, (books _).2 rfl⟩

/-- Nothing gets in the way of a client after a pass that nothing got in the way of. -/
theorem Calm.reconcile_calm (calm : x.Calm) (named : Frame.TextFits x.name)
    (list : List FileRecord) :
    (x.reconcile Peer.shared list).1.config = x.config ∧
      (x.reconcile Peer.shared list).1.Calm := by
  refine reconcile_induction Peer.shared x (P := fun y => y.config = x.config ∧ y.Calm) ?_
    ⟨rfl, calm⟩
  rintro y r - ⟨config, calm'⟩
  have named' : Frame.TextFits y.name := by
    rw [Site.name, ← Site.config, config]
    exact named
  obtain ⟨config', onward⟩ := calm'.reconcileEntry_onward named' r
  exact ⟨config'.trans config, calm_of_onward config' onward calm'⟩

/-! ### Rounds -/

/-- A client hears all of the server's manifest, if there is one. -/
theorem Calm.changeNotification (calm : x.Calm)
    (enumerated : x.world.mount.enumerate = .ok records) (few : records.length < 2 ^ 64) :
    ∃ w, x.changeNotification Peer.shared = ({ x with world := w }, .ok records) ∧
      w.mount = x.world.mount ∧ w.server.endpoint.locks = x.world.server.endpoint.locks ∧
      ({ x with world := w } : Site Shared).Calm ∧ x.world.now.calendar ≤ w.now.calendar := by
  obtain ⟨s, times, endpoint, -, -, later, exchanged⟩ := Shared.exchange_of_calm calm
    (x.config.notifyWait + x.config.deadline)
    [.call (.ofNat (x.config.notifyWait + x.config.deadline))
      (.changeNotification (.ofNat x.config.notifyWait))]
  have made : s.endpoint.mount.enumerate = .ok records := by
    rw [endpoint]
    exact enumerated
  obtain ⟨s', served, mount, locks⟩ := s.serve_changeNotification times
    (.ofNat (x.config.notifyWait + x.config.deadline)) [] (.ofNat x.config.notifyWait)
  rw [made, ServerFrame.ofManifest] at served
  obtain ⟨w, answered, endpoint', coming, now, -⟩ := exchanged s' _ served
  have fits : (Reply.manifest records).Fits :=
    ⟨few, fun r mem => Mount.textFits_of_statFile ((Mount.enumerate_spec enumerated).1 r mem)⟩
  refine ⟨w, ?_, ?_, ?_, calm.tail coming, now ▸ later⟩
  · rw [changeNotification_eq]
    exact askFor_of_reply answered fits rfl
  · rw [Shared.mount, endpoint', mount, endpoint]
    rfl
  · rw [endpoint', locks, endpoint]

/-- A round is a pass over the server's manifest. -/
theorem Calm.pollOnce (calm : x.Calm) (enumerated : x.world.mount.enumerate = .ok records)
    (few : records.length < 2 ^ 64) :
    ∃ y : Site Shared, x.pollOnce Peer.shared
        = ((y.reconcile Peer.shared records).1, .ok (y.reconcile Peer.shared records).2) ∧
      y.client = x.client ∧ y.world.mount = x.world.mount ∧ y.Calm ∧
      ∀ name, x.Agrees name y := by
  obtain ⟨w, told, mount, locks, calm', later⟩ := calm.changeNotification enumerated few
  refine ⟨{ x with world := w }, ?_, rfl, mount, calm', fun name => ?_⟩
  · rw [Site.pollOnce, told]
  · exact ⟨rfl, .refl name _, (Mount.SameAs.of_eq mount).agrees name,
      congrArg (LockTable.ownerOf · name) locks, fun _ => calm', later⟩

/-- **What a round comes to for a file is told by its one entry.** -/
theorem Calm.pollOnce_entry (calm : x.Calm) (named : Frame.TextFits x.name)
    (enumerated : x.world.mount.enumerate = .ok records) (few : records.length < 2 ^ 64) :
    ∃ report, (x.pollOnce Peer.shared).2 = .ok report ∧ ∀ r ∈ records,
      ∃ y, x.Agrees r.name y ∧ y.Calm ∧
        (y.reconcileEntry Peer.shared r).1.Agrees r.name (x.pollOnce Peer.shared).1 ∧
        r.name ∈ report.under (y.reconcileEntry Peer.shared r).2 := by
  obtain ⟨z, polled, -, -, calm', agrees⟩ := calm.pollOnce enumerated few
  rw [polled]
  refine ⟨_, rfl, fun r mem => ?_⟩
  have named' : Frame.TextFits z.name := (agrees r.name).named ▸ named
  obtain ⟨y, before, calm'', after, booked⟩ :=
    calm'.reconcile_entry named' (Mount.enumerate_spec enumerated).2 mem
  exact ⟨y, (agrees r.name).trans before, calm'', after, booked⟩

/-- What a round comes to for a file that the server has. -/
theorem Calm.pollOnce_of_has (calm : x.Calm) (named : Frame.TextFits x.name)
    (enumerated : x.world.mount.enumerate = .ok records) (few : records.length < 2 ^ 64) {g : File}
    (its : x.world.mount.Has name g) :
    ∃ report y, (x.pollOnce Peer.shared).2 = .ok report ∧ x.Agrees name y ∧ y.Calm ∧
      (y.reconcileEntry Peer.shared (Mount.recordOf name g g.content)).1.Agrees name
        (x.pollOnce Peer.shared).1 ∧
      name ∈ report.under
        (y.reconcileEntry Peer.shared (Mount.recordOf name g g.content)).2 := by
  obtain ⟨report, polled, entries⟩ := calm.pollOnce_entry named enumerated few
  obtain ⟨y, before, calm', after, booked⟩ := entries _ (its.record_mem enumerated)
  exact ⟨report, y, polled, before, calm', after, booked⟩

end Site

end MountSync
