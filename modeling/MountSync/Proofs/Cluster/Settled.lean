/-
Two rounds in a row.

A round that left nothing to a person, and in which nothing failed, leaves every file of the server
settled: the client has the same copy; or it has a newer one that is not to be stored, because it is
empty or another client has the lock.  A settled file is passed over, and stays settled, since all
that was looked at is as it was.

The second round goes through the server's manifest anew.  It has the same names: a store makes one
file another one, and every name that led to a file still leads to one that can be read.

The client's mount may have more files than the server's.  A round does not look at them.
-/
import MountSync.Proofs.Cluster.Round

namespace MountSync

/-- An entry whose transfer failed is passed over or has failed. -/
theorem Booking.ofResult_error (done : Booking) (failure : Failure) :
    ofResult done (.error failure : Except Failure Unit) = .skipped ∨
      ofResult done (.error failure : Except Failure Unit) = .failed := by
  rw [ofResult]
  split
  · exact Or.inl rfl
  · exact Or.inr rfl

/-! ### Ordinary entries -/

namespace Mount

variable {m m' : Mount} {name : String}

/-- What is found under the name of an ordinary entry is the entry. -/
theorem has_of_statFile
    (ordinary : ∀ node, m.get? (.text name) = some node → node.isOrdinary = true)
    {record : FileRecord} (stat : m.statFile name = .ok (some record)) :
    ∃ f, m.Has name f ∧ record = recordOf name f f.content := by
  obtain ⟨accepted, p, f, found, -, rfl⟩ := file_of_statFile stat
  have admits := Admits.of_locate accepted found
  cases entry : m.get? (.text name) with
  | none => exact nomatch (admits.locate_none entry).symm.trans found
  | some node =>
      have here := ordinary node entry
      have leads := admits.locate_entry entry (Node.isLink_of_isOrdinary here)
      cases leads.symm.trans found
      exact ⟨f, ⟨admits, entry, Node.isPlain_of_isOrdinary here⟩, rfl⟩

/-- A copy that replaces a file can be read. -/
theorem Copies.relists {source : Mount} {now : UnixTime} (h : source.Copies name now m m')
    (before : ∃ f, m.get? (.text name) = some (.file f)) : m.Relists m' := by
  obtain ⟨-, g, -, -, -, placed⟩ := h.copied
  obtain ⟨f, puts, -, -, kept⟩ := placed.entry
  have read : f.read = .ok f.content := by rw [File.read, kept]
  exact Refilled.relists ⟨before, puts⟩ read

end Mount

namespace Site

variable {x x' : Site Shared} {name : String} {manifest records : List FileRecord}

/-! ### The manifest after a pass

The second round asks for a manifest of its own.  It has the same names, so each of its entries can
be compared with the one of the first round.
-/

theorem Moves.relists (h : Moves name x x')
    (before : ∃ f, x.world.mount.get? (.text name) = some (.file f)) :
    x.world.mount.Relists x'.world.mount := by
  cases h with
  | kept _ its => exact its.relists
  | fetched _ its => exact its.relists
  | stored _ its => exact its.relists before

/-- A pass over files that the server has leaves it with the same names. -/
theorem Alone.relists_reconcile (h : x.Alone)
    (files : ∀ r ∈ manifest, ∃ f, x.world.mount.get? (.text r.name) = some (.file f)) :
    x.world.mount.Relists (x.reconcile Peer.shared manifest).1.world.mount := by
  have all : (x.reconcile Peer.shared manifest).1.Alone ∧
      x.world.mount.Relists (x.reconcile Peer.shared manifest).1.world.mount ∧
      ∀ r ∈ manifest, ∃ f, (x.reconcile Peer.shared manifest).1.world.mount.get? (.text r.name)
        = some (.file f) := by
    refine reconcile_induction Peer.shared x (P := fun y => y.Alone ∧
      x.world.mount.Relists y.world.mount ∧
      ∀ r ∈ manifest, ∃ f, y.world.mount.get? (.text r.name) = some (.file f)) ?_
      ⟨h, .refl _, files⟩
    rintro y r mem ⟨alone, relists, files⟩
    obtain ⟨moves, alone'⟩ := alone.reconcileEntry r
    refine ⟨alone', relists.trans (moves.relists (files r mem)), fun s mem' => ?_⟩
    obtain ⟨f, file⟩ := files s mem'
    rcases (moves.spares (List.mem_singleton_self _)).2.entry file with same | ⟨-, replaced⟩
    · exact ⟨f, same⟩
    · exact replaced
  exact all.2.1

/-! ### Files that are settled

There are three ways for two copies to come to rest: they are the same, or the client's is newer and
empty, or it is newer and somebody else has the lock.
-/

/-- Why two copies of a file stay as they are. -/
inductive Rests (x : Site Shared) (name : String) (f g : File) : Prop
  | same : fileChecksum f.content = fileChecksum g.content → Rests x name f g
  /-- The client's copy is newer, but there is nothing in it. -/
  | empty : fileChecksum f.content ≠ fileChecksum g.content →
      g.modified.unixTime < f.modified.unixTime → f.content = [] → Rests x name f g
  /-- The client's copy is newer, but another client has the lock, and this one understands that. -/
  | locked {owner : ClientId} {failure : Failure} :
      fileChecksum f.content ≠ fileChecksum g.content →
      g.modified.unixTime < f.modified.unixTime → f.content ≠ [] →
      x.world.server.endpoint.locks.ownerOf name = some owner → owner ≠ x.name →
      Declined name owner failure →
      Booking.ofResult .stored (.error failure : Except Failure Unit) = .skipped →
      Rests x name f g

/-- Both sides have a file, and the copies stay as they are. -/
def Settled (x : Site Shared) (name : String) : Prop :=
  ∃ f g, x.mount.Has name f ∧ x.world.mount.Has name g ∧ x.Rests name f g

theorem Rests.agrees {f g : File} (h : x.Rests name f g) (agrees : x.Agrees name x') :
    x'.Rests name f g := by
  cases h with
  | same same => exact .same same
  | empty differs newer empty => exact .empty differs newer empty
  | locked differs newer nonempty held foreign declined skipped =>
      refine .locked differs newer nonempty (agrees.owner.trans held) ?_ declined skipped
      rw [agrees.named]
      exact foreign

/-- What was fetched is the server's copy. -/
theorem Fetched.settled {g : File} (h : x.Fetched name g x') (its : x.world.mount.Has name g) :
    x'.Settled name := by
  obtain ⟨f, mine, content, -⟩ := h.mine
  refine ⟨f, g, mine, h.its.symm ▸ its, .same ?_⟩
  rw [content]

/-- What was stored is the client's copy. -/
theorem Stored.settled {f : File} (h : x.Stored name f x') (mine : x.mount.Has name f) :
    x'.Settled name := by
  obtain ⟨g, its, content, -⟩ := h.its
  refine ⟨f, g, ?_, its, .same ?_⟩
  · rw [Site.mount, h.client]
    exact mine
  · rw [content]

/-- What was refused stays as it is. -/
theorem Refused.settled {f g : File} {owner : ClientId} {failure : Failure}
    (h : x.Refused name owner x') (mine : x.mount.Has name f) (its : x.world.mount.Has name g)
    (differs : fileChecksum f.content ≠ fileChecksum g.content)
    (newer : g.modified.unixTime < f.modified.unixTime) (nonempty : f.content ≠ [])
    (foreign : owner ≠ x.name) (declined : Declined name owner failure)
    (skipped : Booking.ofResult .stored (.error failure : Except Failure Unit) = .skipped) :
    x'.Settled name := by
  refine ⟨f, g, ?_, h.its.symm ▸ its, .locked differs newer nonempty h.owner ?_ declined skipped⟩
  · rw [Site.mount, h.client]
    exact mine
  · rw [Site.name, h.client]
    exact foreign

theorem Settled.agrees (h : x.Settled name) (agrees : x.Agrees name x') : x'.Settled name := by
  obtain ⟨f, g, mine, its, rests⟩ := h
  exact ⟨f, g, mine.agrees agrees.mine, its.agrees agrees.its, rests.agrees agrees⟩

/-- **The entry of a file settles it, unless it is left to a person or fails.** -/
theorem Calm.settled_entry (calm : x.Calm) (named : Frame.TextFits x.name)
    (ordinary : ∀ node, x.mount.get? (.text name) = some node → node.isOrdinary = true)
    {g : File} (its : x.world.mount.Has name g) :
    let r := x.reconcileEntry Peer.shared (Mount.recordOf name g g.content)
    r.2 = .anomaly ∨ r.2 = .failed ∨ r.1.Settled name := by
  dsimp only
  cases stat : x.mount.statFile name with
  | error failure =>
      rw [reconcileEntry_of_failure stat]
      exact Or.inr (Or.inl rfl)
  | ok found =>
      cases found with
      | none =>
          obtain ⟨x', b, went, placed, refused⟩ := calm.entry_fetched its stat nofun
          rw [went]
          by_cases can : x.mount.CanPlace name
          · exact Or.inr (Or.inr ((placed can).2.settled its))
          · exact Or.inr (Or.inl (refused can))
      | some record =>
          obtain ⟨f, mine, rfl⟩ := Mount.has_of_statFile ordinary stat
          have compared := calm.compared named mine its
          generalize x.reconcileEntry Peer.shared (Mount.recordOf name g g.content) = r
            at compared ⊢
          cases compared with
          | same same => exact Or.inr (Or.inr ⟨f, g, mine, its, .same same⟩)
          | anomaly _ _ => exact Or.inl rfl
          | fetched _ _ fetched => exact Or.inr (Or.inr (fetched.settled its))
          | empty differs newer empty =>
              exact Or.inr (Or.inr ⟨f, g, mine, its, .empty differs newer empty⟩)
          | stored _ _ _ stored => exact Or.inr (Or.inr (stored.settled mine))
          | @refused x' owner failure differs newer nonempty held foreign declined refused =>
              rcases Booking.ofResult_error .stored failure with skipped | failed
              · exact Or.inr (Or.inr
                  (refused.settled mine its differs newer nonempty foreign declined skipped))
              · exact Or.inr (Or.inl failed)

/-- The entry of a file that is settled is passed over, and the file stays settled. -/
theorem Settled.entry (h : x.Settled name) (calm : x.Calm) (named : Frame.TextFits x.name)
    {r : FileRecord} (stat : x.world.mount.statFile name = .ok (some r)) :
    (x.reconcileEntry Peer.shared r).2 = .skipped ∧
      (x.reconcileEntry Peer.shared r).1.client = x.client ∧
      (x.reconcileEntry Peer.shared r).1.world.mount = x.world.mount ∧
      (x.reconcileEntry Peer.shared r).1.Settled name := by
  obtain ⟨f, g, mine, its, rests⟩ := h
  cases its.stat.symm.trans stat
  cases rests with
  | same same =>
      rw [entry_same mine same]
      exact ⟨rfl, rfl, rfl, f, g, mine, its, .same same⟩
  | empty differs newer empty =>
      rw [entry_empty mine differs newer empty]
      exact ⟨rfl, rfl, rfl, f, g, mine, its, .empty differs newer empty⟩
  | locked differs newer nonempty held foreign declined skipped =>
      obtain ⟨x', failure', went, declined', refused⟩ :=
        calm.entry_refused named mine differs newer nonempty held foreign
      -- The refusal is the one of the first round.
      cases (declined.symm.trans declined' : (Except.error _ : Except Failure Reply) = _)
      rw [went]
      exact ⟨skipped, refused.client, refused.its,
        refused.settled mine its differs newer nonempty foreign declined skipped⟩

/-! ### Two rounds

An entry that is neither left to a person nor fails settles its file, and the entries behind it
leave it settled.
-/

/-- A pass that leaves nothing to a person, and in which nothing fails, settles the files. -/
theorem Calm.settles_reconcile (calm : x.Calm) (named : Frame.TextFits x.name)
    (mine : x.mount.Ordinary) (its : x.world.mount.Ordinary)
    (made : x.world.mount.enumerate = .ok manifest)
    (clear : (x.reconcile Peer.shared manifest).2.anomalies = [])
    (clean : (x.reconcile Peer.shared manifest).2.failed = []) :
    ∀ r ∈ manifest, (x.reconcile Peer.shared manifest).1.Settled r.name := by
  intro r mem
  obtain ⟨stats, distinct⟩ := Mount.enumerate_spec made
  obtain ⟨g, has, is⟩ := Mount.has_of_statFile (fun _ => its.isOrdinary) (stats r mem)
  obtain ⟨y, before, calm', after, booked⟩ := calm.reconcile_entry named distinct mem
  have named' : Frame.TextFits y.name := before.named ▸ named
  have ordinary : ∀ node, y.mount.get? (.text r.name) = some node → node.isOrdinary = true := by
    rw [before.mine.entry]
    exact fun node => mine.isOrdinary
  have settles := calm'.settled_entry named' ordinary (has.agrees before.its)
  rw [← is] at settles
  rcases settles with anomaly | failed | settled
  · rw [anomaly, Report.under, clear] at booked
    exact nomatch booked
  · rw [failed, Report.under, clean] at booked
    exact nomatch booked
  · exact settled.agrees after

/-- Nothing has changed on either side, and the files of a manifest are settled. -/
structure Rested (manifest : List FileRecord) (x y : Site Shared) : Prop where
  client : y.client = x.client
  mount : y.world.mount = x.world.mount
  calm : y.Calm
  settled : ∀ r ∈ manifest, y.Settled r.name

theorem Rested.entry {y : Site Shared} (h : Rested manifest x y) (named : Frame.TextFits x.name)
    {r : FileRecord} (mem : r ∈ manifest)
    (stat : x.world.mount.statFile r.name = .ok (some r)) :
    (y.reconcileEntry Peer.shared r).2 = .skipped ∧
      Rested manifest x (y.reconcileEntry Peer.shared r).1 := by
  have named' : Frame.TextFits y.name := by
    rw [Site.name, h.client]
    exact named
  have stat' : y.world.mount.statFile r.name = .ok (some r) := by
    rw [h.mount]
    exact stat
  obtain ⟨skipped, client, mount, next⟩ := (h.settled r mem).entry h.calm named' stat'
  obtain ⟨config, onward⟩ := h.calm.reconcileEntry_onward named' r
  refine ⟨skipped, client.trans h.client, mount.trans h.mount,
    calm_of_onward config onward h.calm, fun s mem' => ?_⟩
  by_cases same : s.name = r.name
  · rw [same]
    exact next
  · exact (h.settled s mem').agrees (h.calm.reconcileEntry_agrees named' (Ne.symm same))

/-- A pass over files that are settled is quiet and changes nothing. -/
theorem Calm.quiet_reconcile (calm : x.Calm) (named : Frame.TextFits x.name)
    (made : x.world.mount.enumerate = .ok manifest)
    (settled : ∀ r ∈ manifest, x.Settled r.name) :
    (x.reconcile Peer.shared manifest).2.isQuiet = true ∧
      (x.reconcile Peer.shared manifest).1.client = x.client ∧
      (x.reconcile Peer.shared manifest).1.world.mount = x.world.mount := by
  obtain ⟨stats, -⟩ := Mount.enumerate_spec made
  have all : (x.reconcile Peer.shared manifest).2.isQuiet = true ∧
      Rested manifest x (x.reconcile Peer.shared manifest).1 := by
    rw [reconcile, reconcileFrom_eq]
    refine quiet_through (P := Rested manifest x) ?_ ⟨rfl, rfl, calm, settled⟩ rfl
    intro y r mem rested
    exact rested.entry named mem (stats r mem)
  obtain ⟨quiet, rested⟩ := all
  exact ⟨quiet, rested.client, rested.mount⟩

/-- **After a round that left nothing to a person, and in which nothing failed, the next one is quiet
and changes nothing on either side.** -/
theorem quiet_after_pollOnce (x : Site Shared) (calm : x.Calm) (named : Frame.TextFits x.name)
    (mine : x.mount.Ordinary) (its : x.world.mount.Ordinary)
    (made : x.world.mount.enumerate = .ok records) (few : records.length < 2 ^ 64) :
    ∃ first, (x.pollOnce Peer.shared).2 = .ok first ∧
      (first.anomalies = [] → first.failed = [] →
        let y := (x.pollOnce Peer.shared).1
        ∃ second, (y.pollOnce Peer.shared).2 = .ok second ∧ second.isQuiet = true ∧
          (y.pollOnce Peer.shared).1.mount = y.mount ∧
          (y.pollOnce Peer.shared).1.world.mount = y.world.mount) := by
  obtain ⟨x', polled, client, mount, calm', -⟩ := calm.pollOnce made few
  rw [polled]
  refine ⟨_, rfl, fun clear clean => ?_⟩
  have named' : Frame.TextFits x'.name := by
    rw [Site.name, client]
    exact named
  have mine' : x'.mount.Ordinary := by
    rw [Site.mount, client]
    exact mine
  rw [← mount] at its made
  have settled := calm'.settles_reconcile named' mine' its made clear clean
  obtain ⟨config, after⟩ := calm'.reconcile_calm named' records
  -- The manifest of the second round has the same names.
  have files : ∀ r ∈ records, ∃ f, x'.world.mount.get? (.text r.name) = some (.file f) := by
    intro r mem
    obtain ⟨stats, -⟩ := Mount.enumerate_spec made
    obtain ⟨f, has, -⟩ := Mount.has_of_statFile (fun _ => its.isOrdinary) (stats r mem)
    exact ⟨f, has.entry⟩
  obtain ⟨records', made', names⟩ :=
    ((calm'.alone named').relists_reconcile files).enumerate made
  have few' : records'.length < 2 ^ 64 := by
    have length := names.length_eq
    rw [List.length_map, List.length_map] at length
    omega
  dsimp only
  obtain ⟨y, polled', client', mount', calm'', agrees⟩ := after.pollOnce made' few'
  have named'' : Frame.TextFits y.name := by
    rw [Site.name, client', ← Site.name, Site.name, ← Site.config, config]
    exact named'
  rw [← mount'] at made'
  have settled' : ∀ r ∈ records', y.Settled r.name := by
    intro r mem
    obtain ⟨s, mem', same⟩ := List.mem_map.1 (names.mem_iff.1 (List.mem_map_of_mem mem))
    rw [← same]
    exact (settled s mem').agrees (agrees s.name)
  obtain ⟨quiet, client'', mount''⟩ := calm''.quiet_reconcile named'' made' settled'
  rw [polled']
  refine ⟨_, rfl, quiet, ?_, mount''.trans mount'⟩
  rw [Site.mount, client'', client']
  rfl

/-- A client that has edited a file of the server, has locked it already, and has a file of its
own.  Calls take their time. -/
def edited : Site Shared where
  client := ⟨.forTesting "" "" "bob", .holding [("letter", [1, 2, 3], 8), ("mine", [7], 4)]⟩
  world :=
    let served := Mount.holding [("letter", [1, 2], 5)]
    let server := Server.create (.forTesting "") served
    let locks := (server.endpoint.locks.acquire "letter" "bob").1
    { Shared.start served ⟨0, 10⟩ with
      server := server.withEndpoint (server.endpoint.withLocks locks)
      coming := [.quiet ⟨0, 11⟩, { Passage.quiet ⟨20, 30⟩ with resumed := ⟨0, 33⟩ }] }

theorem calm_edited : edited.Calm where
  positive := by decide
  coming := by
    have ways : ∀ p ∈ edited.world.coming, p = .quiet ⟨0, 11⟩ ∨
        p = { Passage.quiet ⟨20, 30⟩ with resumed := ⟨0, 33⟩ } := by decide
    intro p mem
    rcases ways p mem with rfl | rfl
    · exact ⟨rfl, rfl, rfl, rfl, rfl, by decide, by decide⟩
    · exact ⟨rfl, rfl, rfl, rfl, rfl, by decide, by decide⟩

theorem edited_quiet :
    edited.Calm ∧ Frame.TextFits edited.name ∧ edited.mount.Ordinary ∧
    edited.world.mount.Ordinary ∧
    (edited.pollOnce Peer.shared).2 = .ok { Report.empty with stored := ["letter"] } ∧
    let y := (edited.pollOnce Peer.shared).1
    ∃ second, (y.pollOnce Peer.shared).2 = .ok second ∧ second.isQuiet = true ∧
      (y.pollOnce Peer.shared).1.mount = y.mount ∧
      (y.pollOnce Peer.shared).1.world.mount = y.world.mount := by
  have named : Frame.TextFits edited.name := by decide +kernel
  have mine : edited.mount.Ordinary := by decide +kernel
  have its : edited.world.mount.Ordinary := by decide +kernel
  have polled : (edited.pollOnce Peer.shared).2
      = .ok { Report.empty with stored := ["letter"] } := by decide +kernel
  have made : edited.world.mount.enumerate
      = .ok [⟨"letter", 2, fileChecksum [1, 2], 5, 5⟩] := by decide +kernel
  obtain ⟨first, same, quiet⟩ :=
    quiet_after_pollOnce edited calm_edited named mine its made (by decide)
  cases polled.symm.trans same
  exact ⟨calm_edited, named, mine, its, polled, quiet rfl rfl⟩

end Site

end MountSync
