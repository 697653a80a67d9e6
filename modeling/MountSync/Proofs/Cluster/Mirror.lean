/-
When a client that edits nothing stores.

The mount of such a client begins empty and is only ever written by its own fetches.  Each of its
files was brought by one of them, and shows the second in which what came was written.  Two things
can be true of the server's copy of such a file:

  * It is the one that was fetched, or another one with the same checksum.
  * It was written after the fetch was served.

Neither is ever lost, whatever others do, because whatever they store shows the time at which it is
stored.  So if the client's copy ever comes to be the newer one of two different ones, then the
server's copy was written while the fetch was under way.  A client also stores what it has where
there is nothing: a file that was removed comes back.

All of this is about files that keep their content.  Of a file that the machine makes up when it is
read, what a client receives is another content from the start.
-/
import MountSync.Proofs.Sync.Pass

namespace MountSync

/-! ### Times -/

/-- The time that a file shows that was written in a second. -/
def Timestamp.shown (second : UnixTime) : UnixTime := (atSecond second).unixTime

theorem Timestamp.shown_mono {s t : UnixTime} (h : s ≤ t) : shown s ≤ shown t := by
  unfold shown unixTime atSecond
  dsimp only
  split
  · split
    · exact Int64.le_refl _
    · rename_i notBefore
      exact Int64.not_lt.1 notBefore
  · split
    · rename_i notBefore before
      exact absurd (Int64.lt_of_le_of_lt h before) notBefore
    · exact h

open Timestamp

/-! ### What is logged

An excuse is found in the log: what was on its way at the time is there with the mounts before and
after it.
-/

namespace Service

/-- Whether a connection was made to fetch a file. -/
def IsFetch (s : Service) (name : String) : Prop :=
  ∃ timeout mine, s.frames = [.call timeout (.fetch name mine)]

/-- Whether a connection was made to store a file. -/
def IsStore (s : Service) (h : StoreHeader) : Prop :=
  ∃ timeout more, s.frames = .call timeout (.store h) :: more

/-- Whether a connection was made to wait for a change. -/
def IsNotification (s : Service) : Prop :=
  ∃ timeout maxWait, s.frames = [.call timeout (.changeNotification maxWait)]

/-- Whether there was a file under a name when the connection was served. -/
def Finds (s : Service) (name : String) (g : File) : Prop :=
  ∃ p, s.before.locate name = .ok (p, .file g)

end Service

/-- Whether a copy of the one time was written on the server while the copy of the other time was on
its way to the client: not before the fetch that brought this one was served. -/
def Crossed (log : List Service) (name : String) (its mine : UnixTime) : Prop :=
  ∃ s ∈ log, s.IsFetch name ∧ shown s.done ≤ its ∧ mine = shown s.resumed

/-- Why the server lets a client have its way that edits nothing. -/
inductive Excuse (log : List Service) (s : Service) (h : StoreHeader) : Prop
  /-- There is no file. -/
  | absent : s.before.statFile h.name = .ok none → Excuse log s h
  /-- There is another one, which was written while the client's copy was on its way. -/
  | crossed {g : File} : s.Finds h.name g → fileChecksum g.content ≠ h.checksum →
      g.modified.unixTime ≤ h.mtime →
      (g.IsPlain → Crossed log h.name g.modified.unixTime h.mtime) → Excuse log s h

/-- A connection on which a file was stored, with an excuse. -/
structure Service.Stores (log : List Service) (s : Service) (h : StoreHeader) : Prop where
  placed : ∃ now content, s.before.Placed now h.name content s.after
  excuse : Excuse log s h

theorem Crossed.mono {log log' : List Service} (sub : log ⊆ log') {name : String}
    {its mine : UnixTime} (h : Crossed log name its mine) : Crossed log' name its mine := by
  obtain ⟨s, mem, rest⟩ := h
  exact ⟨s, sub mem, rest⟩

theorem Service.Stores.mono {log log' : List Service} (sub : log ⊆ log') {s : Service}
    {h : StoreHeader} (stores : Service.Stores log s h) : Service.Stores log' s h := by
  refine ⟨stores.placed, ?_⟩
  cases stores.excuse with
  | absent none => exact .absent none
  | crossed finds differs notNewer crossed =>
      exact .crossed finds differs notNewer fun plain => (crossed plain).mono sub

/-! ### A copy and the server

The two possibilities are one predicate, and it is shown to be kept by whatever becomes of the
server's mount.  What is removed or stored there by others makes the second of them true, or leaves
nothing to be said.
-/

/-- Whether the copy of a file has the given checksum, or was written since. -/
def Mount.Since (m : Mount) (name : String) (sum : UInt32) (since : UnixTime) : Prop :=
  ∀ p g, m.locate name = .ok (p, .file g) → g.IsPlain →
    fileChecksum g.content = sum ∨ shown since ≤ g.modified.unixTime

namespace Mount.Since

variable {m m' : Mount} {t t' since : UnixTime} {name : String} {sum : UInt32}

/-- What a call puts in place shows the time of the call. -/
theorem turn (h : m.Since name sum since) (later : since ≤ t) (turns : m.Turns t m') :
    m'.Since name sum since := by
  intro p g located plain
  cases turns with
  | same same =>
      rw [same.locate_eq] at located
      exact h p g located plain
  | stored free _ written puts =>
      rcases puts.locate_eq free (Or.inr ⟨_, rfl⟩) located with before | ⟨-, entry⟩
      · exact h p g before plain
      · cases entry
        refine Or.inr ?_
        rw [written]
        exact shown_mono later
  | removed free puts =>
      rcases puts.locate_eq free (Or.inl rfl) located with before | ⟨-, entry⟩
      · exact h p g before plain
      · exact nomatch entry

theorem becomes (h : m.Since name sum since) (later : since ≤ t)
    (becomes : Shared.Becomes m t m' t') : m'.Since name sum since ∧ since ≤ t' := by
  induction becomes with
  | refl => exact ⟨h, later⟩
  | turn _ next turns ih =>
      obtain ⟨since, before⟩ := ih
      have later := Int64.le_trans before next
      exact ⟨since.turn later turns, later⟩

end Mount.Since

/-- What is known of a file of the client: it was brought by a fetch, and the server's copy has the
same checksum or was written since. -/
def Follows (log : List Service) (m : Mount) (t : UnixTime) (name : String) (f : File) : Prop :=
  ∃ s ∈ log, s.IsFetch name ∧ f.modified = .atSecond s.resumed ∧ s.done ≤ t ∧
    ∀ p g, m.locate name = .ok (p, .file g) → g.IsPlain →
      fileChecksum g.content = fileChecksum f.content ∨ shown s.done ≤ g.modified.unixTime

namespace Follows

variable {log log' : List Service} {m m' : Mount} {t t' : UnixTime} {name : String} {f g : File}

theorem mono (h : Follows log m t name f) (sub : log ⊆ log') : Follows log' m t name f := by
  obtain ⟨s, mem, rest⟩ := h
  exact ⟨s, sub mem, rest⟩

theorem becomes (h : Follows log m t name f) (becomes : Shared.Becomes m t m' t') :
    Follows log m' t' name f := by
  obtain ⟨s, mem, fetch, modified, done, behind⟩ := h
  obtain ⟨since, later⟩ := Mount.Since.becomes behind done becomes
  exact ⟨s, mem, fetch, modified, later, since⟩

/-- A different copy that the server has was written since. -/
theorem crossed (h : Follows log m t name f) {p : Place}
    (located : m.locate name = .ok (p, .file g)) (plain : g.IsPlain)
    (differs : fileChecksum g.content ≠ fileChecksum f.content) :
    Crossed log name g.modified.unixTime f.modified.unixTime := by
  obtain ⟨s, mem, fetch, modified, -, behind⟩ := h
  rcases behind p g located plain with same | since
  · exact absurd same differs
  · refine ⟨s, mem, fetch, since, ?_⟩
    rw [modified]
    rfl

end Follows

/-! ### A client that edits nothing

This is the invariant.  It is about the client's mount, the server's mount and the log at once, so
that each call can be shown to keep it without a look at those before.
-/

/-- Every file of a mount was brought by a fetch and follows the server's copy, and every store so
far had an excuse. -/
structure Shared.Mirrored (w : Shared) (m : Mount) : Prop where
  entries : ∀ name node, m.get? (.text name) = some node →
    ∃ f, node = .file f ∧ Follows w.log w.mount w.now.calendar name f
  stores : ∀ s ∈ w.log, ∀ h, s.IsStore h → s.before.SameAs s.after ∨ s.Stores w.log h

namespace Shared.Mirrored

variable {w w' : Shared} {m m' : Mount}

/-- Others do what they like before a call. -/
theorem met (h : w.Mirrored m) {name : String} {node : Node}
    (entry : m.get? (.text name) = some node) :
    ∃ f, node = .file f ∧ Follows w.log w.met.mount w.met.now.calendar name f := by
  obtain ⟨f, is, follows⟩ := h.entries name node entry
  exact ⟨f, is, follows.becomes w.becomes_met⟩

theorem same (h : w.Mirrored m) (same : m.SameAs m') : w.Mirrored m' where
  entries := by
    intro name node entry
    rw [same.get?_eq] at entry
    exact h.entries name node entry
  stores := h.stores

/-- A call of which it is known that it stores nothing without an excuse. -/
theorem goes {frames : List ClientFrame} (h : w.Mirrored m) (goes : w.Goes frames w')
    (store : ∀ s : Service, s.before = w.met.mount → s.after = w'.mount → s.frames = frames →
      ∀ header, s.IsStore header → s.before.SameAs s.after ∨ s.Stores w.log header) :
    w'.Mirrored m ∧ w.log ⊆ w'.log := by
  have follows : ∀ name node, m.get? (.text name) = some node →
      ∃ f, node = .file f ∧ Follows w.log w'.mount w'.now.calendar name f := by
    intro name node entry
    obtain ⟨f, is, before⟩ := h.met entry
    exact ⟨f, is, before.becomes goes.becomes⟩
  rcases goes with lost | served
  · rw [← lost.log] at follows
    refine ⟨⟨follows, ?_⟩, ?_⟩
    · rw [lost.log]
      exact h.stores
    · rw [lost.log]
      exact List.Subset.refl _
  · have sub : w.log ⊆ w'.log := by
      rw [served.log]
      exact List.subset_append_left _ _
    refine ⟨⟨?_, ?_⟩, sub⟩
    · intro name node entry
      obtain ⟨f, is, after⟩ := follows name node entry
      exact ⟨f, is, after.mono sub⟩
    · intro s mem header is
      have stores : s.before.SameAs s.after ∨ s.Stores w.log header := by
        rw [served.log] at mem
        rcases List.mem_append.1 mem with before | now
        · exact h.stores s before header is
        · cases List.mem_singleton.1 now
          exact store _ rfl rfl rfl header is
      exact stores.imp_right (·.mono sub)

end Shared.Mirrored

/-! ### What a client's calls do

A fetch is the only call that writes into such a mount, and what it puts there follows the server's
copy at once.
-/

namespace Site

/-- A client that edited nothing still does not after a call, and what was logged stays. -/
structure Keeps (x x' : Site Shared) : Prop where
  config : x'.config = x.config
  log : x.world.log ⊆ x'.world.log
  mirrored : x'.world.Mirrored x'.mount

variable {x y z : Site Shared} {name : String}

theorem Keeps.trans (h : Keeps x y) (h' : Keeps y z) : Keeps x z where
  config := h'.config.trans h.config
  log := List.Subset.trans h.log h'.log
  mirrored := h'.mirrored

/-- What a name leads to in such a mount is the entry of the name. -/
theorem entry_of_locate (mirrored : x.world.Mirrored x.mount)
    (accepted : Mount.accepts name = true) {p : Place} {f : File}
    (located : x.mount.locate name = .ok (p, .file f)) :
    x.mount.get? (.text name) = some (.file f) := by
  have admits := Mount.Admits.of_locate accepted located
  cases entry : x.mount.get? (.text name) with
  | none => exact nomatch (admits.locate_none entry).symm.trans located
  | some node =>
      obtain ⟨f', rfl, -⟩ := mirrored.entries name node entry
      cases (admits.locate_file entry).symm.trans located
      rfl

/-- Whether a file was stored under a name, with an excuse. -/
def Wrote (x : Site Shared) (name : String) : Prop :=
  ∃ s ∈ x.world.log, ∃ h, s.IsStore h ∧ h.name = name ∧ s.Stores x.world.log h

theorem Wrote.mono (h : x.Wrote name) (log : x.world.log ⊆ y.world.log) : y.Wrote name := by
  obtain ⟨s, mem, header, is, named, stores⟩ := h
  exact ⟨s, log mem, header, is, named, stores.mono log⟩

theorem Keeps.named (h : Keeps x y) (named : Frame.TextFits x.name) : Frame.TextFits y.name := by
  rw [Site.name, ← Site.config, h.config]
  exact named

theorem Keeps.refl (mirrored : x.world.Mirrored x.mount) : Keeps x x :=
  ⟨rfl, List.Subset.refl _, mirrored⟩

/-- Whether the server was found to have a copy that was written while the client's copy was on its
way, and before this one was written. -/
def Outran (x : Site Shared) (name : String) : Prop :=
  ∃ s ∈ x.world.log, s.IsNotification ∧ ∃ g, s.Finds name g ∧ (g.IsPlain →
    ∃ mine, Crossed x.world.log name g.modified.unixTime mine ∧ g.modified.unixTime < mine)

theorem Outran.mono (h : x.Outran name) (log : x.world.log ⊆ y.world.log) : y.Outran name := by
  obtain ⟨s, mem, is, g, finds, outran⟩ := h
  refine ⟨s, log mem, is, g, finds, ?_⟩
  intro plain
  obtain ⟨mine, crossed, newer⟩ := outran plain
  exact ⟨mine, crossed.mono log, newer⟩

/-- Records that are still to be gone through: each is that of a file which was there when the wait
for a change was over, and which the client's copy has followed until then. -/
structure Awaits (s : Service) (rest : List FileRecord) (x : Site Shared) : Prop where
  logged : s ∈ x.world.log
  notification : s.IsNotification
  distinct : (rest.map FileRecord.name).Nodup
  looked : ∀ r ∈ rest, s.before.statFile r.name = .ok (some r)
  follows : ∀ r ∈ rest, ∀ f, x.mount.get? (.text r.name) = some (.file f) →
    ∃ t, Follows x.world.log s.before t r.name f

variable {s : Service} {r : FileRecord} {rest : List FileRecord}

/-- Going through one record leaves the others as they are. -/
theorem Awaits.next (h : Awaits s (r :: rest) x) (log : x.world.log ⊆ y.world.log)
    (others : ∀ other, other ≠ r.name →
      y.mount.get? (.text other) = x.mount.get? (.text other)) : Awaits s rest y := by
  obtain ⟨first, distinct⟩ := List.nodup_cons.1 h.distinct
  refine ⟨log h.logged, h.notification, distinct,
    fun r' mem => h.looked r' (List.mem_cons_of_mem r mem), ?_⟩
  intro r' mem f entry
  have different : r'.name ≠ r.name := fun same => first (same ▸ List.mem_map_of_mem mem)
  rw [others _ different] at entry
  obtain ⟨t, follows⟩ := h.follows r' (List.mem_cons_of_mem r mem) f entry
  exact ⟨t, follows.mono log⟩

/-- A copy that is different and newer than the record has outrun the file. -/
theorem Awaits.outran (h : Awaits s (r :: rest) x) (mirrored : x.world.Mirrored x.mount)
    {mine : FileRecord} (stat : x.mount.statFile r.name = .ok (some mine))
    (differs : mine.checksum ≠ r.checksum) (newer : r.mtime < mine.mtime) : x.Outran r.name := by
  obtain ⟨accepted, p, f, located, -, rfl⟩ := Mount.file_of_statFile stat
  have entry := entry_of_locate mirrored accepted located
  obtain ⟨t, follows⟩ := h.follows r (List.mem_cons_self ..) f entry
  obtain ⟨-, q, g, found, -, same⟩ := Mount.file_of_statFile (h.looked r (List.mem_cons_self ..))
  have checksum : r.checksum = fileChecksum g.content := congrArg FileRecord.checksum same
  have mtime : r.mtime = g.modified.unixTime := congrArg FileRecord.mtime same
  refine ⟨s, h.logged, h.notification, g, ⟨q, found⟩, ?_⟩
  intro plain
  refine ⟨f.modified.unixTime, follows.crossed found plain ?_, ?_⟩
  · rw [← checksum]
    exact Ne.symm differs
  · rw [← mtime]
    exact newer

/-- What a client does that edits nothing.  Its watch may hand it any batch. -/
inductive Act
  | fetch (name : String)
  | reconcile (manifest : List FileRecord)
  | poll
  | apply (changes : List Watch.LocalChange)
  deriving DecidableEq, Repr, Inhabited

/-- Does one thing, and tells what is reported of it. -/
def act (x : Site Shared) : Act → Site Shared × Option Report
  | .fetch name => ((x.fetch Peer.shared name).1, none)
  | .reconcile manifest =>
    let (x, report) := x.reconcile Peer.shared manifest
    (x, some report)
  | .poll =>
    let (x, result) := x.pollOnce Peer.shared
    (x, result.toOption)
  | .apply changes =>
    let (x, report) := x.applyLocalChanges Peer.shared changes
    (x, some report)

def run (x : Site Shared) (acts : List Act) : Site Shared :=
  acts.foldl (fun x a => (x.act a).1) x

theorem run_append (x : Site Shared) (before after : List Act) :
    x.run (before ++ after) = (x.run before).run after := List.foldl_append ..

/-- A connection that alice makes at a moment. -/
def fromAlice (now : Moment) (frames : List ClientFrame) : Connection where
  times := .atOnce now
  busy := 0
  messages := frames.map .ofClientFrame

/-- A client without files, at a server with one file, and what is to come. -/
def follower (coming : List Passage) : Site Shared where
  client := ⟨.forTesting "" "" "bob", .holding []⟩
  world := { Shared.start (.holding [("f", [1], 5)]) ⟨0, 10⟩ with coming }

/-- Alice removes the file after the client has fetched it. -/
def removed : Site Shared :=
  follower [.quiet ⟨0, 10⟩,
    { Passage.quiet ⟨0, 12⟩ with
      before := [fromAlice ⟨0, 11⟩ [.call 9 (.requestLock "f" "alice")],
        fromAlice ⟨0, 11⟩ [.call 9 (.delete "f" "alice")]] }]

end Site

end MountSync
