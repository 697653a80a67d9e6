/-
Calls that nothing gets in the way of.

Nobody else comes to the server before such a call, a worker is free, every frame gets through in
both directions, and there is time left whenever the server looks at the clock.  What becomes of a
store or a fetch is then decided by the two copies alone.  If the one on the other side gives way
it is replaced; if it is the same the call is refused, and nothing has changed but the lock.

How long the calls take, how their content is cut into pieces and what the calendar shows makes no
difference.
-/
import MountSync.Proofs.Cluster.Transfer

namespace MountSync

/-- A call that gets through to a server on which nobody else works, and whose answer comes back. -/
structure Passage.Intact (p : Passage) : Prop where
  before : p.before = []
  refused : p.refused = none
  outgoing : p.outgoing = .whole
  incoming : p.incoming = .whole

/-- The server serves all that is sent, and all of its answer is heard. -/
theorem Passage.Intact.exchange {w : Shared} (h : w.next.Intact) (patience : Nat)
    {frames : List ClientFrame} {s' : Server} {answers : List ServerFrame}
    (served : ({ w.server with busy := w.next.busy } : Server).serve
      (w.next.times.notBefore w.ready) (frames.map .ofClientFrame) = (s', answers)) :
    ∃ w', w.exchange patience frames = (w', .ok (answersOf answers)) ∧
      w'.server.endpoint = s'.endpoint ∧ w'.coming = w.coming.tail ∧
      w'.now = (w.next.times.notBefore w.ready).transfer ∧
      w'.now.calendar ≤ w'.resumed.calendar := by
  rw [Shared.exchange]
  dsimp only
  rw [h.refused, w.met_of_alone h.before]
  dsimp only
  rw [h.outgoing, h.incoming, Shared.connect, Passing.cut]
  have served' : ({ w.server with busy := w.next.busy } : Server).serve
      (w.next.times.notBefore ({ w with coming := w.coming.tail } : Shared).ready)
      (frames.map .ofClientFrame) = (s', answers) := served
  rw [served']
  exact ⟨_, rfl, rfl, rfl, rfl, Moment.calendar_le_later _ _⟩

/-- A call that nothing gets in the way of, and that is carried out in time. -/
structure Passage.Undisturbed (p : Passage) (timeout : UInt64) : Prop where
  before : p.before = []
  busy : p.busy = 0
  refused : p.refused = none
  outgoing : p.outgoing = .whole
  incoming : p.incoming = .whole
  decision : p.times.decision.instant < p.times.arrival.instant + timeout.toNat
  transfer : p.times.transfer.instant < p.times.arrival.instant + timeout.toNat

/-- A result that says that the copies are the same. -/
def UpToDate {α : Type} (result : Except Failure α) : Prop :=
  ∃ failure, result = .error failure ∧ failure.kind = .alreadyExists

/-- What is said of a file that is the same can be read, because its name is short. -/
theorem textFits_alreadySynchronized {name rest : String}
    (short : name.utf8ByteSize ≤ Mount.pathLimit) (brief : rest.utf8ByteSize ≤ 64) :
    Frame.TextFits ("already synchronized: " ++ (name ++ rest)) := by
  have first : "already synchronized: ".utf8ByteSize = 22 := by decide +kernel
  have limit : Mount.pathLimit = 4095 := rfl
  show ("already synchronized: " ++ (name ++ rest)).utf8ByteSize < 2 ^ 64
  rw [String.utf8ByteSize_append, String.utf8ByteSize_append, first]
  omega

/-- A transfer onto a copy that gives way goes on. -/
theorem Mount.Yields.proceeds {m : Mount} {name : String} {g : File} (h : m.Yields name g)
    (direction : Direction) :
    ∃ found, m.statFile name = .ok found ∧
      MountSync.resolve direction (found.map FileRecord.version)
        (recordOf name g g.content).version = .proceed := by
  rcases h with absent | ⟨record, stat, differs, notNewer⟩
  · exact ⟨none, absent, rfl⟩
  · exact ⟨some record, stat, resolve_eq_proceed_iff.2 ⟨differs, notNewer⟩⟩

namespace Shared

variable {w : Shared} {timeout : UInt64}

/-- Whether nothing gets in the way of the calls that are to come. -/
structure Calm (w : Shared) (timeout : UInt64) : Prop where
  positive : 0 < timeout.toNat
  coming : ∀ p ∈ w.coming, p.Undisturbed timeout

theorem Calm.next (h : w.Calm timeout) : w.next.Undisturbed timeout := by
  unfold Shared.next
  cases coming : w.coming with
  | nil => exact ⟨rfl, rfl, rfl, rfl, rfl, Nat.lt_add_of_pos_right h.positive,
      Nat.lt_add_of_pos_right h.positive⟩
  | cons p rest => exact h.coming p (coming ▸ List.mem_cons_self ..)

theorem Calm.tail (h : w.Calm timeout) {w' : Shared} (coming : w'.coming = w.coming.tail) :
    w'.Calm timeout where
  positive := h.positive
  coming := by
    intro p mem
    rw [coming] at mem
    exact h.coming p (List.mem_of_mem_tail mem)

/-- Time is left at each moment of a call, even if it could not begin as early as it would. -/
theorem Calm.inTime (h : w.Calm timeout) (now : Moment) :
    Server.InTime (w.next.times.notBefore now) timeout := by
  have positive := h.positive
  have decision := h.next.decision
  have transfer := h.next.transfer
  have arrival : w.next.times.arrival.instant
      ≤ max now.instant w.next.times.arrival.instant := Nat.le_max_right ..
  refine ⟨?_, ?_, ?_⟩
  · refine decide_eq_false ?_
    show ¬ max now.instant w.next.times.arrival.instant + timeout.toNat
      ≤ max now.instant w.next.times.arrival.instant
    omega
  · refine decide_eq_false ?_
    show ¬ max now.instant w.next.times.arrival.instant + timeout.toNat
      ≤ max (max now.instant w.next.times.arrival.instant) w.next.times.decision.instant
    omega
  · refine decide_eq_false ?_
    show ¬ max now.instant w.next.times.arrival.instant + timeout.toNat
      ≤ max (max (max now.instant w.next.times.arrival.instant) w.next.times.decision.instant)
        w.next.times.transfer.instant
    omega

/-- The server carries out the whole call in time, and all of its answer is heard.  The calendar
goes on, and the client hears the answer no earlier than it was given. -/
theorem exchange_of_calm (h : w.Calm timeout) (patience : Nat) (frames : List ClientFrame) :
    ∃ (s : Server) (times : Schedule), s.endpoint = w.server.endpoint ∧ s.busy = 0 ∧
      Server.InTime times timeout ∧ w.now.calendar ≤ times.transfer.calendar ∧
      ∀ s' answers, s.serve times (frames.map .ofClientFrame) = (s', answers) →
        ∃ w', w.exchange patience frames = (w', .ok (answersOf answers)) ∧
          w'.server.endpoint = s'.endpoint ∧ w'.coming = w.coming.tail ∧
          w'.now = times.transfer ∧ times.transfer.calendar ≤ w'.resumed.calendar := by
  have next := h.next
  have intact : w.next.Intact := ⟨next.before, next.refused, next.outgoing, next.incoming⟩
  refine ⟨{ w.server with busy := w.next.busy }, w.next.times.notBefore w.ready, rfl, next.busy,
    h.inTime w.ready, ?_, ?_⟩
  · exact Int64.le_trans (Moment.calendar_le_later _ _)
      (w.next.times.calendar_le_transfer w.ready)
  intro s' answers served
  obtain ⟨w', came, endpoint, coming, now, later⟩ := intact.exchange patience served
  exact ⟨w', came, endpoint, coming, now, now ▸ later⟩

end Shared

namespace Site

/-! ### What a client makes of an answer

The frames of an answer that comes through as a whole are read back one by one, so the client makes
of them what the server has said.
-/

section

variable {σ α : Type} {p : Peer σ} {x : Site σ} {w : σ} {timeout : Nat} {request : Request}
  {more : List ClientFrame} {what : String} {take : Reply → Option α}

theorem askFor_of_reply {reply : Reply} {a : α}
    (exchanged : x.exchanged p timeout request more = (w, .ok (answersOf [.reply reply])))
    (fits : reply.Fits) (taken : take reply = some a) :
    x.askFor p timeout request more what take = ({ x with world := w }, .ok a) := by
  rw [askFor, ask, call_eq, exchanged]
  dsimp only [Except.mapError]
  rw [replyIn_answersOf fits]
  dsimp only
  rw [taken]

theorem askFor_of_refusal {status : Status}
    (exchanged : x.exchanged p timeout request more = (w, .ok (answersOf [.refusal status])))
    (fits : Frame.TextFits status.message) :
    x.askFor p timeout request more what take
      = ({ x with world := w }, .error (.ofStatus status)) := by
  rw [askFor, ask, call_eq, exchanged]
  dsimp only [Except.mapError]
  rw [replyIn_refusal fits]

end

/-- Whether nothing gets in the way of a client's calls. -/
def Calm (x : Site Shared) : Prop := x.world.Calm (.ofNat x.config.deadline)

/-- A short name, and a server whose lock on a file is free or the client's. -/
structure MayLock (x : Site Shared) (name : String) : Prop where
  named : Frame.TextFits x.name
  free : ∀ owner, x.world.server.endpoint.locks.ownerOf name = some owner → owner = x.name

variable {x : Site Shared} {name : String}

/-! ### Storing

A store is two calls, and the second one is made under the lock that the first one was granted.
Both are undisturbed, so nobody can have come to own the lock in between.
-/

/-- A client is granted a lock that is free or its own. -/
theorem Calm.requestLock (calm : x.Calm) (may : x.MayLock name)
    (accepted : Mount.accepts name = true) (nameFits : Frame.TextFits name) :
    ∃ w, x.requestLock Peer.shared name = ({ x with world := w }, .ok ()) ∧
      w.mount = x.world.mount ∧ w.server.endpoint.locks.ownerOf name = some x.name ∧
      w.Calm (.ofNat x.config.deadline) ∧ x.world.now.calendar ≤ w.now.calendar := by
  obtain ⟨s, times, endpoint, idle, intime, later, exchanged⟩ := Shared.exchange_of_calm calm
    x.config.deadline [.call (.ofNat x.config.deadline) (.requestLock name x.name)]
  have fits : (Request.requestLock name x.name).Fits := ⟨nameFits, may.named⟩
  obtain ⟨s', served, mount, owner, -, -⟩ := s.serve_requestLock_of_free times
    (.ofNat x.config.deadline) [] fits (Server.canStart_of_idle idle _) intime.positive accepted
    (endpoint ▸ may.free)
  obtain ⟨w, answered, endpoint', coming, now, -⟩ := exchanged s' _ served
  refine ⟨w, askFor_of_reply answered trivial rfl, ?_, ?_, calm.tail coming, now ▸ later⟩
  · rw [Shared.mount, endpoint', mount, endpoint]
    rfl
  · rw [endpoint']
    exact owner

/-- What a client makes of being told that another one holds a lock. -/
def Declined (name : String) (owner : ClientId) (failure : Failure) : Prop :=
  Message.replyIn (answersOf [.refusal (Failure.locked name (some owner)).status])
    = .error failure

/-- A client is refused a lock that another one holds. -/
theorem Calm.requestLock_of_held (calm : x.Calm) (named : Frame.TextFits x.name)
    (accepted : Mount.accepts name = true) (nameFits : Frame.TextFits name) {owner : ClientId}
    (held : x.world.server.endpoint.locks.ownerOf name = some owner) (foreign : owner ≠ x.name) :
    ∃ w failure, x.requestLock Peer.shared name = ({ x with world := w }, .error failure) ∧
      Declined name owner failure ∧ w.mount = x.world.mount ∧
      w.server.endpoint.locks.ownerOf name = some owner := by
  obtain ⟨s, times, endpoint, idle, intime, -, exchanged⟩ := Shared.exchange_of_calm calm
    x.config.deadline [.call (.ofNat x.config.deadline) (.requestLock name x.name)]
  have fits : (Request.requestLock name x.name).Fits := ⟨nameFits, named⟩
  have held' : s.endpoint.locks.ownerOf name = some owner := by
    rw [endpoint]
    exact held
  obtain ⟨s', served, mount, owner'⟩ := s.serve_requestLock_of_held times
    (.ofNat x.config.deadline) [] fits (Server.canStart_of_idle idle _) intime.positive accepted
    held' foreign
  obtain ⟨w, answered, endpoint', -⟩ := exchanged s' _ served
  -- A refusal may be too long to be read, but it is never taken for a reply.
  obtain ⟨failure, declined⟩ : ∃ failure, Declined name owner failure := by
    cases read : Message.replyIn
        (answersOf [.refusal (Failure.locked name (some owner)).status]) with
    | error failure => exact ⟨failure, read⟩
    | ok reply => exact absurd read (replyIn_cut_refusal .whole _ reply)
  refine ⟨w, failure, ?_, declined, ?_, ?_⟩
  · have exchanged' : x.exchanged Peer.shared x.config.deadline (.requestLock name x.name) []
        = (w, .ok (answersOf [.refusal (Failure.locked name (some owner)).status])) := answered
    rw [Declined] at declined
    rw [Site.requestLock, askFor, ask, call_eq, exchanged']
    dsimp only [Except.mapError]
    rw [declined]
  · rw [Shared.mount, endpoint', mount, endpoint]
    rfl
  · rw [endpoint']
    exact owner'

/-- A client that is granted the lock on a file that is not empty sends it. -/
theorem store_of_granted {record : FileRecord} (stat : x.mount.statFile name = .ok (some record))
    (nonempty : record.size ≠ 0) {w : Shared}
    (granted : x.requestLock Peer.shared name = ({ x with world := w }, .ok ())) :
    x.store Peer.shared name
      = ({ x with world := w } : Site Shared).askFor Peer.shared x.config.deadline
          (.store (x.headerFor record)) (x.piecesToSend name record.size) "store reply"
          stored? := by
  unfold store ownRecord localRecord
  rw [stat]
  dsimp only
  rw [if_neg nonempty, granted]
  rfl

/-- A client that is refused the lock sends nothing. -/
theorem Calm.store_of_held (calm : x.Calm) (named : Frame.TextFits x.name) {record : FileRecord}
    (stat : x.mount.statFile name = .ok (some record)) (nonempty : record.size ≠ 0)
    {owner : ClientId} (held : x.world.server.endpoint.locks.ownerOf name = some owner)
    (foreign : owner ≠ x.name) :
    ∃ w failure, x.store Peer.shared name = ({ x with world := w }, .error failure) ∧
      Declined name owner failure ∧ w.mount = x.world.mount ∧
      w.server.endpoint.locks.ownerOf name = some owner := by
  obtain ⟨accepted, -⟩ := Mount.file_of_statFile stat
  obtain ⟨w, failure, refused, declined, mount, owner'⟩ :=
    calm.requestLock_of_held named accepted (Mount.textFits_of_statFile stat) held foreign
  refine ⟨w, failure, ?_, declined, mount, owner'⟩
  unfold store ownRecord localRecord
  rw [stat]
  dsimp only
  rw [if_neg nonempty, refused]

/-- **A store onto a copy that gives way replaces it by the whole file, and gives the lock
back.** -/
theorem Calm.store_of_yields (calm : x.Calm) (may : x.MayLock name)
    (accepted : Mount.accepts name = true) {place : Place} {f : File}
    (found : x.mount.locate name = .ok (place, .file f)) (sized : f.IsSized)
    (nonempty : f.content ≠ []) (entered : x.world.mount.enter = .ok ())
    (free : x.world.mount.get? (.text name) ≠ some .directory)
    (yields : x.world.mount.Yields name f) :
    ∃ w, x.store Peer.shared name = ({ x with world := w }, .ok ()) ∧
      x.world.mount.Placed w.now.calendar name f.content w.mount ∧
      w.server.endpoint.locks.ownerOf name = none ∧
      x.world.now.calendar ≤ w.now.calendar := by
  have stat := Mount.statFile_of_file accepted found sized.read
  have nameFits := Mount.textFits_of_statFile stat
  obtain ⟨w, granted, mount, owner, calm', later⟩ := calm.requestLock may accepted nameFits
  have size : (Mount.recordOf name f f.content).size.toNat = f.content.length := sized.toNat_size
  rw [store_of_granted stat (sized.size_ne_zero nonempty) granted]
  -- What is sent is the content as far as its size goes, which is all of it.
  have pieces := x.piecesToSend_eq found (Mount.recordOf name f f.content).size
  have whole : f.content.take (Mount.recordOf name f f.content).size.toNat = f.content := by
    rw [size, List.take_length]
  rw [whole] at pieces
  rw [pieces]
  generalize cut : piecesOf (min (max x.config.chunkSize 1) readLimit) f.content = parts
  have fits := x.fits_piecesOf f.content
  have flat := flatten_piecesOf (min (max x.config.chunkSize 1) readLimit) f.content
  rw [cut] at fits flat
  let h := x.headerFor (Mount.recordOf name f f.content)
  obtain ⟨s, times, endpoint, idle, intime, later', exchanged⟩ := Shared.exchange_of_calm calm'
    x.config.deadline (.call (.ofNat x.config.deadline) (.store h) :: framesOf parts)
  have met : s.endpoint.mount = x.world.mount := (congrArg Endpoint.mount endpoint).trans mount
  have takes : StoreCall.Takes s.endpoint h
      (Server.deadline times (.ofNat x.config.deadline)) times := by
    refine ⟨accepted, intime.arrival, ?_, ?_, intime.decision, ?_⟩
    · rw [endpoint]
      exact owner
    · rw [met]
      exact yields.proceeds .store
    · rw [met]
      exact entered
  have fulfilled : h.Fulfilled s.endpoint.mount f.content := by
    refine ⟨size.symm, (fileChecksum_eq_checksum f.content).symm, ?_⟩
    rw [met]
    exact free
  have brought := contentOf?_framesOf fits
  rw [flat] at brought
  have headerFits : h.Fits := ⟨nameFits, may.named⟩
  obtain ⟨s', served, stored, -, -⟩ := s.serve_store_of_fulfilled times (.ofNat x.config.deadline)
    ((framesOf parts).map .ofClientFrame) headerFits (Server.canStart_of_idle idle _) takes brought
    fulfilled
  obtain ⟨w', answered, endpoint', -, now, -⟩ := exchanged s' _ served
  refine ⟨w', askFor_of_reply answered nameFits rfl, ?_, ?_, ?_⟩
  · have placed := stored.placed
    rw [met, ← endpoint', ← now] at placed
    exact placed
  · rw [endpoint']
    exact stored.disposed.ownerOf takes.owner
  · rw [now]
    exact Int64.le_trans later later'

/-- A store onto the same copy is refused, and gives the lock back. -/
theorem Calm.store_of_upToDate (calm : x.Calm) (may : x.MayLock name) {mine its : FileRecord}
    (stat : x.mount.statFile name = .ok (some mine)) (nonempty : mine.size ≠ 0)
    (there : x.world.mount.statFile name = .ok (some its)) (same : its.checksum = mine.checksum) :
    ∃ w result, x.store Peer.shared name = ({ x with world := w }, result) ∧ UpToDate result ∧
      w.mount = x.world.mount ∧ w.server.endpoint.locks.ownerOf name = none := by
  obtain ⟨accepted, place, f, found, -, rfl⟩ := Mount.file_of_statFile stat
  have nameFits := Mount.textFits_of_statFile stat
  obtain ⟨w, granted, mount, owner, calm', -⟩ := calm.requestLock may accepted nameFits
  rw [store_of_granted stat nonempty granted]
  let h := x.headerFor (Mount.recordOf name f f.content)
  let more := x.piecesToSend name (Mount.recordOf name f f.content).size
  obtain ⟨s, times, endpoint, idle, intime, -, exchanged⟩ := Shared.exchange_of_calm calm'
    x.config.deadline (.call (.ofNat x.config.deadline) (.store h) :: more)
  have met : s.endpoint.mount = x.world.mount := (congrArg Endpoint.mount endpoint).trans mount
  have headerFits : h.Fits := ⟨nameFits, may.named⟩
  have owner' : s.endpoint.locks.ownerOf h.name = some h.client := by
    rw [endpoint]
    exact owner
  have there' : s.endpoint.mount.statFile h.name = .ok (some its) := by
    rw [met]
    exact there
  obtain ⟨s', served, kept, disposed, -, -⟩ := s.serve_store_of_upToDate times
    (.ofNat x.config.deadline) (more.map .ofClientFrame) headerFits
    (Server.canStart_of_idle idle _) intime.positive accepted owner' there' same
  obtain ⟨w', answered, endpoint', -⟩ := exchanged s' _ served
  have told : Frame.TextFits (Failure.upToDateOnServer h.name).status.message :=
    textFits_alreadySynchronized (Mount.utf8ByteSize_le_of_statFile stat) (by decide +kernel)
  refine ⟨w', _, askFor_of_refusal answered told, ⟨_, rfl, rfl⟩, ?_, ?_⟩
  · rw [Shared.mount, endpoint', kept, met]
  · rw [endpoint']
    exact disposed.ownerOf owner'

/-! ### Fetching

A fetch is one call, and asks for no lock.
-/

/-- A client makes of an answer to a fetch what its messages bring. -/
theorem fetch_of_answered {found : Option FileRecord} (stat : x.mount.statFile name = .ok found)
    {w : Shared} {messages : List Message}
    (exchanged : x.world.exchange x.config.deadline
      [.call (.ofNat x.config.deadline) (.fetch name (found.map FileRecord.version))]
        = (w, .ok messages)) :
    x.fetch Peer.shared name
      = (({ x with world := w } : Site Shared).withMount
          (x.mount.receive w.resumed.calendar name none messages).1,
        (x.mount.receive w.resumed.calendar name none messages).2) := by
  have exchanged' : x.exchanged Peer.shared x.config.deadline
      (.fetch name (found.map FileRecord.version)) [] = (w, .ok messages) := exchanged
  unfold fetch localRecord
  rw [stat]
  dsimp only
  rw [call_eq, exchanged']
  rfl

/-- **A fetch onto a copy that gives way replaces it by the whole file, unless the client's own
machine refuses to put it in place.** -/
theorem Calm.fetch_of_yields (calm : x.Calm) (accepted : Mount.accepts name = true) {place : Place}
    {f : File} (found : x.world.mount.locate name = .ok (place, .file f)) (plain : f.IsPlain)
    (yields : x.mount.Yields name f) :
    ∃ w, w.mount = x.world.mount ∧
      w.server.endpoint.locks = x.world.server.endpoint.locks ∧
      x.world.now.calendar ≤ w.resumed.calendar ∧
      (x.mount.CanPlace name → ∃ m,
        x.fetch Peer.shared name
          = (({ x with world := w } : Site Shared).withMount m, .ok f.content.length) ∧
        x.mount.Placed w.resumed.calendar name f.content m) ∧
      (¬ x.mount.CanPlace name → ∃ m fault,
        x.fetch Peer.shared name
          = (({ x with world := w } : Site Shared).withMount m, .error (.io fault)) ∧
        x.mount.SameAs m) := by
  obtain ⟨mine, stat, proceeds⟩ := yields.proceeds .fetch
  obtain ⟨s, times, endpoint, idle, intime, later, exchanged⟩ := Shared.exchange_of_calm calm
    x.config.deadline
    [.call (.ofNat x.config.deadline) (.fetch name (mine.map FileRecord.version))]
  have found' : s.endpoint.mount.locate name = .ok (place, .file f) := by
    rw [endpoint]
    exact found
  obtain ⟨s', messages, served, some, bring, mount, locks⟩ := Server.serve_fetch_of_proceed []
    (Mount.textFits_of_statFile stat) idle intime accepted found' plain proceeds
  obtain ⟨w, answered, endpoint', -, -, resumed⟩ := exchanged s' _ served
  have fetched := fetch_of_answered stat answered
  obtain ⟨placed, refused⟩ :=
    x.mount.receive_of_bring name w.resumed.calendar some plain.small bring
  refine ⟨w, ?_, ?_, Int64.le_trans later resumed, ?_, ?_⟩
  · rw [Shared.mount, endpoint', mount, endpoint]
    rfl
  · rw [endpoint', locks, endpoint]
  · intro can
    obtain ⟨m, received, placed⟩ := placed can
    rw [received] at fetched
    exact ⟨m, fetched, placed⟩
  · intro cannot
    obtain ⟨m, fault, received, same⟩ := refused cannot
    rw [received] at fetched
    exact ⟨m, fault, fetched, same⟩

/-- A fetch of the same copy is refused. -/
theorem Calm.fetch_of_upToDate (calm : x.Calm) {mine its : FileRecord}
    (stat : x.mount.statFile name = .ok (some mine))
    (there : x.world.mount.statFile name = .ok (some its)) (same : its.checksum = mine.checksum) :
    ∃ w result, x.fetch Peer.shared name = ({ x with world := w }, result) ∧ UpToDate result ∧
      w.mount = x.world.mount ∧ w.server.endpoint.locks = x.world.server.endpoint.locks := by
  obtain ⟨s, times, endpoint, idle, intime, -, exchanged⟩ := Shared.exchange_of_calm calm
    x.config.deadline [.call (.ofNat x.config.deadline) (.fetch name (some mine.version))]
  have there' : s.endpoint.mount.statFile name = .ok (some its) := by
    rw [endpoint]
    exact there
  have same' : mine.version.checksum = its.checksum := same.symm
  obtain ⟨s', served, mount, locks⟩ := Server.serve_fetch_of_upToDate []
    (Mount.textFits_of_statFile stat) idle intime there' same'
  obtain ⟨w, answered, endpoint', -⟩ := exchanged s' _ served
  have fetched := fetch_of_answered stat answered
  have told : Frame.TextFits (Failure.upToDateOnClient name).status.message :=
    textFits_alreadySynchronized (Mount.utf8ByteSize_le_of_statFile stat) (by decide +kernel)
  rw [Mount.receive_of_refusal _ _ _ _ told] at fetched
  refine ⟨w, _, fetched, ⟨_, rfl, rfl⟩, ?_, ?_⟩
  · rw [Shared.mount, endpoint', mount, endpoint]
    rfl
  · rw [endpoint', locks, endpoint]

end Site

end MountSync
