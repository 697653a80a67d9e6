/-
What becomes of one entry of a pass that nothing gets in the way of.

To a file, little matters of what is on either side: what the two mounts have under its name, who
holds its lock, and that time goes on.  Entries under other names leave all of this as it is.  So
the entry of a file meets what there was of the file when the pass began, and what it makes of it
stays to the end.

What it makes of it is decided by the two copies.  Where they are the same nothing happens, and where
they are not the older one is replaced by the newer one, with three exceptions: copies of one time
are left to a person, an empty file is not stored, and neither is one that another client has locked.
-/
import MountSync.Proofs.Cluster.Calm
import MountSync.Proofs.Sync.Pass

namespace MountSync

namespace Mount

/-! ### What a mount has under a name

`Has` is for a file that can be looked up and keeps its content.  What is under other names is left
open, and so is what lies elsewhere.
-/

/-- There is a file under a name that can be looked up, and it keeps its content. -/
structure Has (m : Mount) (name : String) (f : File) : Prop where
  admits : m.Admits name
  entry : m.get? (.text name) = some (.file f)
  plain : f.IsPlain

/-- Two mounts have the same under a name. -/
structure Agrees (name : String) (m m' : Mount) : Prop where
  place : m'.place = m.place
  directory : m'.tree.get? m.place = m.tree.get? m.place
  entry : m'.get? (.text name) = m.get? (.text name)

variable {m m' m'' : Mount} {name : String} {f : File}

theorem Agrees.refl (name : String) (m : Mount) : m.Agrees name m := ⟨rfl, rfl, rfl⟩

theorem Agrees.trans (h : m.Agrees name m') (h' : m'.Agrees name m'') : m.Agrees name m'' where
  place := h'.place.trans h.place
  directory := by
    have directory := h'.directory
    rw [h.place] at directory
    exact directory.trans h.directory
  entry := h'.entry.trans h.entry

theorem SameAs.agrees (h : m.SameAs m') (name : String) : m.Agrees name m' :=
  ⟨h.place, h.nodes _, h.get?_eq _⟩

/-- What changes under another name does not matter. -/
theorem Spares.agrees {other : String} (h : m.Spares [other] m') (different : other ≠ name) :
    m.Agrees name m' where
  place := h.place
  directory := by
    refine h.others _ fun changed _ _ same => ?_
    exact m.placeOf_ne_place _ same.symm
  entry := by
    rw [get?, placeOf, h.place]
    refine h.others _ fun changed mem _ same => ?_
    obtain rfl := List.mem_singleton.1 mem
    exact different (EntryName.text.inj (m.placeOf_injective same)).symm

theorem Has.agrees (h : m.Has name f) (same : m.Agrees name m') : m'.Has name f :=
  ⟨h.admits.congr same.place same.directory, same.entry.trans h.entry, h.plain⟩

theorem Has.locate (h : m.Has name f) :
    m.locate name = .ok (m.placeOf (.text name), .file f) :=
  h.admits.locate_file h.entry

theorem Has.stat (h : m.Has name f) : m.statFile name = .ok (some (recordOf name f f.content)) :=
  statFile_of_file h.admits.accepted h.locate h.plain.read

theorem Has.size_of_empty (h : m.Has name f) (empty : f.content = []) :
    (recordOf name f f.content).size = 0 := by
  show UInt64.ofNat f.size = 0
  rw [File.size, h.plain.kept, empty]
  rfl

theorem Has.contentOf? (h : m.Has name f) : m.contentOf? name = some f.content :=
  contentOf?_of_locate h.locate h.plain

theorem Has.canPlace (h : m.Has name f) : m.CanPlace name := by
  refine ⟨h.admits.entered, ?_⟩
  rw [h.entry]
  exact nofun

/-- What was put under a name is there. -/
theorem Placed.has {now : UnixTime} {content : Bytes} (placed : m.Placed now name content m')
    (admits : m.Admits name) (small : content.length < 2 ^ 64) :
    ∃ f, m'.Has name f ∧ f.content = content ∧ f.modified = .atSecond now := by
  obtain ⟨f, puts, rfl, modified, kept⟩ := placed.entry
  exact ⟨f, ⟨admits.puts puts, puts.entry, kept, small⟩, rfl, modified⟩

end Mount

/-! ### Calls about one file

The entries of other files are calls as well.  They take time, and they do nothing to this file and
to its lock.
-/

namespace Shared

/-- Calls about one file were made: time has gone on, and whoever had the lock on another file still
has it. -/
structure Onward (name : String) (w w' : Shared) : Prop where
  calm : ∀ timeout, w.Calm timeout → w'.Calm timeout
  now : w.now.calendar ≤ w'.now.calendar
  owner : ∀ other, other ≠ name →
    w'.server.endpoint.locks.ownerOf other = w.server.endpoint.locks.ownerOf other

variable {w w' w'' : Shared} {name : String} {timeout : UInt64}

theorem Onward.refl (name : String) (w : Shared) : w.Onward name w :=
  ⟨fun _ calm => calm, Int64.le_refl _, fun _ _ => rfl⟩

theorem Onward.trans (h : w.Onward name w') (h' : w'.Onward name w'') : w.Onward name w'' :=
  ⟨fun timeout calm => h'.calm timeout (h.calm timeout calm), Int64.le_trans h.now h'.now,
    fun other different => (h'.owner other different).trans (h.owner other different)⟩

theorem Calm.onward (calm : w.Calm timeout) (patience : Nat) (given : UInt64) {request : Request}
    (fits : request.Fits) (more : List ClientFrame) (about : request.file? ∈ [none, some name]) :
    w.Onward name (w.exchange patience (.call given request :: more)).1 := by
  obtain ⟨s, times, endpoint, idle, -, later, exchanged⟩ :=
    exchange_of_calm calm patience (.call given request :: more)
  obtain ⟨s', served, endpoint', -, -⟩ :=
    s.serve_call times given (more.map .ofClientFrame) request fits
  obtain ⟨w', went, answered, coming, now, -⟩ := exchanged s' _ served
  rw [went]
  refine ⟨fun _ calm => calm.tail coming, now ▸ later, fun other different => ?_⟩
  have aside : (s.limitWait request).file? ≠ some other := by
    have limited : (s.limitWait request).file? = request.file? := by
      cases request <;> rfl
    rw [limited]
    intro same
    rw [same] at about
    simp [different] at about
  rw [answered, endpoint', s.work_of_canStart times given _ (Server.canStart_of_idle idle _),
    Endpoint.ownerOf_dispatch _ _ _ _ aside, endpoint]

end Shared

namespace Site

variable {x x' x'' : Site Shared} {name other : String} {r : FileRecord}

theorem Calm.alone (calm : x.Calm) (named : Frame.TextFits x.name) : x.Alone :=
  ⟨named, fun p mem => (calm.coming p mem).before⟩

theorem Calm.fetch_onward (calm : x.Calm) (name : String) :
    (x.fetch Peer.shared name).1.config = x.config ∧
      x.world.Onward name (x.fetch Peer.shared name).1.world := by
  unfold fetch localRecord
  cases stat : x.mount.statFile name with
  | error failure => exact ⟨rfl, .refl ..⟩
  | ok found =>
      have fits : (Request.fetch name (found.map FileRecord.version)).Fits :=
        Mount.textFits_of_statFile stat
      have about : (Request.fetch name (found.map FileRecord.version)).file? ∈ [none, some name] := by
        simp [Request.file?]
      have onward := Shared.Calm.onward calm x.config.deadline (.ofNat x.config.deadline) fits []
        about
      dsimp only
      rw [call_eq, exchanged]
      dsimp only [Peer.shared]
      generalize x.world.exchange x.config.deadline
        [.call (.ofNat x.config.deadline) (.fetch name (found.map FileRecord.version))] = answer
        at onward ⊢
      obtain ⟨w, fault | messages⟩ := answer
      · exact ⟨rfl, onward⟩
      · exact ⟨rfl, onward⟩

theorem Calm.store_onward (calm : x.Calm) (named : Frame.TextFits x.name) (name : String) :
    (x.store Peer.shared name).1.config = x.config ∧
      x.world.Onward name (x.store Peer.shared name).1.world := by
  unfold store ownRecord localRecord
  cases stat : x.mount.statFile name with
  | error failure => exact ⟨rfl, .refl ..⟩
  | ok found =>
      cases found with
      | none => exact ⟨rfl, .refl ..⟩
      | some record =>
          dsimp only
          by_cases empty : record.size = 0
          · rw [if_pos empty]
            exact ⟨rfl, .refl ..⟩
          rw [if_neg empty, Site.requestLock]
          have nameFits := Mount.textFits_of_statFile stat
          have lockFits : (Request.requestLock name x.name).Fits := ⟨nameFits, named⟩
          obtain ⟨client, world, -⟩ := x.askFor_eq Peer.shared x.config.deadline
            (.requestLock name x.name) [] "lock reply" noContent?
          have locked : x.world.Onward name (x.askFor Peer.shared x.config.deadline
              (.requestLock name x.name) [] "lock reply" noContent?).1.world :=
            world ▸ Shared.Calm.onward calm x.config.deadline _ lockFits []
              (by simp [Request.file?])
          generalize x.askFor Peer.shared x.config.deadline (.requestLock name x.name) []
            "lock reply" noContent? = asked at client world locked ⊢
          obtain ⟨y, failure | granted⟩ := asked
          · exact ⟨congrArg Client.config client, locked⟩
          · have config : y.config = x.config := congrArg Client.config client
            obtain ⟨-, place, f, -, -, rfl⟩ := Mount.file_of_statFile stat
            have headerFits :
                (Request.store (y.headerFor (Mount.recordOf name f f.content))).Fits := by
              refine ⟨nameFits, ?_⟩
              show Frame.TextFits y.config.client
              rw [config]
              exact named
            have calm' : y.world.Calm (.ofNat x.config.deadline) := locked.calm _ calm
            dsimp only
            obtain ⟨client', world', -⟩ := y.askFor_eq Peer.shared y.config.deadline
              (.store (y.headerFor (Mount.recordOf name f f.content)))
              (y.piecesToSend name (Mount.recordOf name f f.content).size) "store reply" stored?
            refine ⟨(congrArg Client.config client').trans config, ?_⟩
            rw [world']
            refine locked.trans (Shared.Calm.onward calm' y.config.deadline _ headerFits _ ?_)
            exact List.mem_cons_of_mem _ (List.mem_singleton_self _)

/-- An entry makes calls about its file. -/
theorem Calm.reconcileEntry_onward (calm : x.Calm) (named : Frame.TextFits x.name)
    (r : FileRecord) :
    (x.reconcileEntry Peer.shared r).1.config = x.config ∧
      x.world.Onward r.name (x.reconcileEntry Peer.shared r).1.world := by
  have goes := x.entryGoes Peer.shared r
  generalize x.reconcileEntry Peer.shared r = y at goes ⊢
  cases goes with
  | passed _ => exact ⟨rfl, .refl ..⟩
  | fetched => exact calm.fetch_onward r.name
  | stored _ _ _ => exact calm.store_onward named r.name

/-! ### What matters to a file

What an entry meets is what there was before the pass, so it has to be the same to this file, but
not the same altogether.
-/

/-- What matters to a file is the same on both sides, and time has gone on. -/
structure Agrees (name : String) (x x' : Site Shared) : Prop where
  config : x'.config = x.config
  mine : x.mount.Agrees name x'.mount
  its : x.world.mount.Agrees name x'.world.mount
  owner : x'.world.server.endpoint.locks.ownerOf name
    = x.world.server.endpoint.locks.ownerOf name
  calm : x.Calm → x'.Calm
  now : x.world.now.calendar ≤ x'.world.now.calendar

theorem Agrees.refl (name : String) (x : Site Shared) : x.Agrees name x :=
  ⟨rfl, .refl name _, .refl name _, rfl, id, Int64.le_refl _⟩

theorem Agrees.trans (h : x.Agrees name x') (h' : x'.Agrees name x'') : x.Agrees name x'' :=
  ⟨h'.config.trans h.config, h.mine.trans h'.mine, h.its.trans h'.its, h'.owner.trans h.owner,
    fun calm => h'.calm (h.calm calm), Int64.le_trans h.now h'.now⟩

theorem Agrees.named (h : x.Agrees name x') : x'.name = x.name :=
  congrArg ClientConfig.client h.config

/-- A client stays undisturbed while time goes on. -/
theorem calm_of_onward (config : x'.config = x.config) (onward : x.world.Onward name x'.world)
    (calm : x.Calm) : x'.Calm := by
  rw [Calm, config]
  exact onward.calm _ calm

/-- **The entry of another name leaves a file as it is.** -/
theorem Calm.reconcileEntry_agrees (calm : x.Calm) (named : Frame.TextFits x.name)
    (different : r.name ≠ name) : x.Agrees name (x.reconcileEntry Peer.shared r).1 := by
  obtain ⟨mine, its⟩ := ((calm.alone named).reconcileEntry r).1.spares
    (List.mem_singleton_self r.name)
  obtain ⟨config, onward⟩ := calm.reconcileEntry_onward named r
  exact ⟨config, mine.agrees different, its.agrees different, onward.owner name different.symm,
    calm_of_onward config onward, onward.now⟩

/-! ### The entry of a file

The server has the file, and the record is the one of what it has. -/

section

variable {f g : File}

/-- What is done is what is planned for what the client has. -/
theorem reconcileEntry_of_stat {found : Option FileRecord}
    (stat : x.mount.statFile name = .ok found) {action : SyncAction}
    (planned : plan found (Mount.recordOf name g g.content) = action) :
    x.reconcileEntry Peer.shared (Mount.recordOf name g g.content)
      = x.carryOut Peer.shared name action := by
  have stat' : x.mount.statFile (Mount.recordOf name g g.content).name = .ok found := stat
  unfold reconcileEntry localRecord
  rw [stat']
  dsimp only
  rw [planned]
  rfl

/-- Where the client cannot look at what it has, the entry fails. -/
theorem reconcileEntry_of_failure {failure : Failure}
    (stat : x.mount.statFile name = .error failure) :
    x.reconcileEntry Peer.shared (Mount.recordOf name g g.content) = (x, .failed) := by
  have stat' : x.mount.statFile (Mount.recordOf name g g.content).name = .error failure := stat
  unfold reconcileEntry localRecord
  rw [stat']

/-- Copies with one checksum are in step. -/
theorem entry_same (mine : x.mount.Has name f)
    (same : fileChecksum f.content = fileChecksum g.content) :
    x.reconcileEntry Peer.shared (Mount.recordOf name g g.content) = (x, .skipped) :=
  reconcileEntry_of_stat mine.stat (plan_of_same same)

/-- Different copies of one time are left to a person. -/
theorem entry_anomaly (mine : x.mount.Has name f)
    (differs : fileChecksum f.content ≠ fileChecksum g.content)
    (equal : f.modified.unixTime = g.modified.unixTime) :
    x.reconcileEntry Peer.shared (Mount.recordOf name g g.content) = (x, .anomaly) :=
  reconcileEntry_of_stat mine.stat (plan_of_equal differs equal)

/-- A newer copy of the client is to be stored. -/
theorem entry_newer (mine : x.mount.Has name f)
    (differs : fileChecksum f.content ≠ fileChecksum g.content)
    (newer : g.modified.unixTime < f.modified.unixTime) :
    x.reconcileEntry Peer.shared (Mount.recordOf name g g.content)
      = ((x.store Peer.shared name).1, .ofResult .stored (x.store Peer.shared name).2) :=
  reconcileEntry_of_stat mine.stat (plan_of_newer differs newer)

/-- An older copy of the client is to be fetched, and so is a file that it has not. -/
theorem entry_fetch {found : Option FileRecord} (stat : x.mount.statFile name = .ok found)
    (older : ∀ mine ∈ found, mine.checksum ≠ fileChecksum g.content ∧
      mine.mtime < g.modified.unixTime) :
    x.reconcileEntry Peer.shared (Mount.recordOf name g g.content)
      = ((x.fetch Peer.shared name).1, .ofResult .fetched (x.fetch Peer.shared name).2) := by
  have planned : plan found (Mount.recordOf name g g.content) = .fetch := by
    cases found with
    | none => rfl
    | some mine =>
        obtain ⟨differs, earlier⟩ := older mine rfl
        exact plan_of_older differs earlier
  exact reconcileEntry_of_stat stat planned

/-- What a fetch of the server's copy leaves: this copy, put in place at some time from now on. -/
structure Fetched (x : Site Shared) (name : String) (g : File) (x' : Site Shared) : Prop where
  mine : ∃ f', x'.mount.Has name f' ∧ f'.content = g.content ∧
    ∃ t, f'.modified = .atSecond t ∧ x.world.now.calendar ≤ t
  its : x'.world.mount = x.world.mount
  owner : x'.world.server.endpoint.locks.ownerOf name
    = x.world.server.endpoint.locks.ownerOf name

/-- The entry of a file that the client has an older copy of, or none. -/
theorem Calm.entry_fetched (calm : x.Calm) (its : x.world.mount.Has name g)
    {found : Option FileRecord} (stat : x.mount.statFile name = .ok found)
    (older : ∀ mine ∈ found, mine.checksum ≠ fileChecksum g.content ∧
      mine.mtime < g.modified.unixTime) :
    ∃ x' b, x.reconcileEntry Peer.shared (Mount.recordOf name g g.content) = (x', b) ∧
      (x.mount.CanPlace name → b = .fetched ∧ x.Fetched name g x') ∧
      (¬ x.mount.CanPlace name → b = .failed) := by
  have yields : x.mount.Yields name g := by
    cases found with
    | none => exact Or.inl stat
    | some mine =>
        obtain ⟨differs, earlier⟩ := older mine rfl
        exact Or.inr ⟨mine, stat, differs, Int64.le_of_lt earlier⟩
  obtain ⟨w, mount, locks, later, placed, refused⟩ :=
    calm.fetch_of_yields its.admits.accepted its.locate its.plain yields
  refine ⟨_, _, entry_fetch stat older, ?_, ?_⟩
  · intro can
    obtain ⟨m, fetched, placed⟩ := placed can
    have admits := Mount.Admits.of_statFile stat can.1
    obtain ⟨f', has, content, modified⟩ := placed.has admits its.plain.small
    rw [fetched]
    exact ⟨rfl, ⟨f', has, content, _, modified, later⟩, mount,
      congrArg (LockTable.ownerOf · name) locks⟩
  · intro cannot
    obtain ⟨m, fault, fetched, -⟩ := refused cannot
    rw [fetched]
    rfl

/-- An empty file is not stored. -/
theorem store_of_empty {record : FileRecord} (stat : x.mount.statFile name = .ok (some record))
    (empty : record.size = 0) : x.store Peer.shared name = (x, .error (.emptyFile name)) := by
  unfold store ownRecord localRecord
  rw [stat]
  exact if_pos empty

/-- The entry of a file of which the client has a newer copy that is empty. -/
theorem entry_empty (mine : x.mount.Has name f)
    (differs : fileChecksum f.content ≠ fileChecksum g.content)
    (newer : g.modified.unixTime < f.modified.unixTime) (empty : f.content = []) :
    x.reconcileEntry Peer.shared (Mount.recordOf name g g.content) = (x, .skipped) := by
  rw [entry_newer mine differs newer, store_of_empty mine.stat (mine.size_of_empty empty)]
  rfl

/-- What a store of the client's copy leaves: this copy, put in place on the server at some time
from now on, and a lock that is free. -/
structure Stored (x : Site Shared) (name : String) (f : File) (x' : Site Shared) : Prop where
  client : x'.client = x.client
  its : ∃ g', x'.world.mount.Has name g' ∧ g'.content = f.content ∧
    ∃ t, g'.modified = .atSecond t ∧ x.world.now.calendar ≤ t
  owner : x'.world.server.endpoint.locks.ownerOf name = none

/-- The entry of a file of which the client has a newer copy, and no other client the lock. -/
theorem Calm.entry_stored (calm : x.Calm) (may : x.MayLock name) (mine : x.mount.Has name f)
    (its : x.world.mount.Has name g) (differs : fileChecksum f.content ≠ fileChecksum g.content)
    (newer : g.modified.unixTime < f.modified.unixTime) (nonempty : f.content ≠ []) :
    ∃ x', x.reconcileEntry Peer.shared (Mount.recordOf name g g.content) = (x', .stored) ∧
      x.Stored name f x' := by
  have yields : x.world.mount.Yields name f :=
    Or.inr ⟨_, its.stat, differs.symm, Int64.le_of_lt newer⟩
  obtain ⟨w, stored, placed, free, later⟩ := calm.store_of_yields may mine.admits.accepted
    mine.locate mine.plain.isSized nonempty its.admits.entered its.canPlace.2 yields
  obtain ⟨g', has, content, modified⟩ := placed.has its.admits mine.plain.small
  refine ⟨{ x with world := w }, ?_, rfl, ⟨g', has, content, _, modified, later⟩, free⟩
  rw [entry_newer mine differs newer, stored]
  rfl

/-- What a refused store leaves: everything, and the lock to the one who has it. -/
structure Refused (x : Site Shared) (name : String) (owner : ClientId) (x' : Site Shared) :
    Prop where
  client : x'.client = x.client
  its : x'.world.mount = x.world.mount
  owner : x'.world.server.endpoint.locks.ownerOf name = some owner

/-- The entry of a file of which the client has a newer copy, and another client the lock. -/
theorem Calm.entry_refused (calm : x.Calm) (named : Frame.TextFits x.name)
    (mine : x.mount.Has name f) (differs : fileChecksum f.content ≠ fileChecksum g.content)
    (newer : g.modified.unixTime < f.modified.unixTime) (nonempty : f.content ≠ [])
    {owner : ClientId} (held : x.world.server.endpoint.locks.ownerOf name = some owner)
    (foreign : owner ≠ x.name) :
    ∃ x' failure, x.reconcileEntry Peer.shared (Mount.recordOf name g g.content)
        = (x', .ofResult .stored (.error failure : Except Failure Unit)) ∧
      Declined name owner failure ∧ x.Refused name owner x' := by
  obtain ⟨w, failure, refused, declined, mount, owner'⟩ := calm.store_of_held named mine.stat
    (mine.plain.isSized.size_ne_zero nonempty) held foreign
  refine ⟨{ x with world := w }, failure, ?_, declined, rfl, mount, owner'⟩
  rw [entry_newer mine differs newer, refused]

/-- What the entry of a file makes of two copies, by what they are. -/
inductive Compared (x : Site Shared) (name : String) (f g : File) : Site Shared × Booking → Prop
  | same : fileChecksum f.content = fileChecksum g.content → Compared x name f g (x, .skipped)
  | anomaly : fileChecksum f.content ≠ fileChecksum g.content →
      f.modified.unixTime = g.modified.unixTime → Compared x name f g (x, .anomaly)
  | fetched {x' : Site Shared} : fileChecksum f.content ≠ fileChecksum g.content →
      f.modified.unixTime < g.modified.unixTime → x.Fetched name g x' →
      Compared x name f g (x', .fetched)
  | empty : fileChecksum f.content ≠ fileChecksum g.content →
      g.modified.unixTime < f.modified.unixTime → f.content = [] →
      Compared x name f g (x, .skipped)
  | stored {x' : Site Shared} : fileChecksum f.content ≠ fileChecksum g.content →
      g.modified.unixTime < f.modified.unixTime → f.content ≠ [] → x.Stored name f x' →
      Compared x name f g (x', .stored)
  | refused {x' : Site Shared} {owner : ClientId} {failure : Failure} :
      fileChecksum f.content ≠ fileChecksum g.content →
      g.modified.unixTime < f.modified.unixTime → f.content ≠ [] →
      x.world.server.endpoint.locks.ownerOf name = some owner → owner ≠ x.name →
      Declined name owner failure → x.Refused name owner x' →
      Compared x name f g (x', .ofResult .stored (.error failure : Except Failure Unit))

/-- **The entry of a file that both have is decided by the two copies, and by who has the lock.** -/
theorem Calm.compared (calm : x.Calm) (named : Frame.TextFits x.name) (mine : x.mount.Has name f)
    (its : x.world.mount.Has name g) :
    x.Compared name f g (x.reconcileEntry Peer.shared (Mount.recordOf name g g.content)) := by
  by_cases same : fileChecksum f.content = fileChecksum g.content
  · rw [entry_same mine same]
    exact .same same
  by_cases older : f.modified.unixTime < g.modified.unixTime
  · obtain ⟨x', b, went, placed, -⟩ := calm.entry_fetched its mine.stat (by
      rintro _ ⟨⟩
      exact ⟨same, older⟩)
    obtain ⟨rfl, fetched⟩ := placed mine.canPlace
    rw [went]
    exact .fetched same older fetched
  by_cases newer : g.modified.unixTime < f.modified.unixTime
  · by_cases empty : f.content = []
    · rw [entry_empty mine same newer empty]
      exact .empty same newer empty
    by_cases free : ∀ owner, x.world.server.endpoint.locks.ownerOf name = some owner →
        owner = x.name
    · obtain ⟨x', went, stored⟩ := calm.entry_stored ⟨named, free⟩ mine its same newer empty
      rw [went]
      exact .stored same newer empty stored
    · simp only [not_forall] at free
      obtain ⟨owner, held, foreign⟩ := free
      obtain ⟨x', failure, went, declined, refused⟩ :=
        calm.entry_refused named mine same newer empty held foreign
      rw [went]
      exact .refused same newer empty held foreign declined refused
  · have equal := Int64.le_antisymm (Int64.not_lt.1 newer) (Int64.not_lt.1 older)
    rw [entry_anomaly mine same equal]
    exact .anomaly same equal

end

end Site

end MountSync
