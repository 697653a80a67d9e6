/-
What a server answers.

A connection opens with a call, and what the server answers is decided by the call that it carries
out on its endpoint; the counters that it keeps on the way are nobody's concern here.  So each kind
of call has one statement, which says what frames are sent and what has become of the mount and the
locks, for whatever is sent behind the call.
-/
import MountSync.Proofs.Endpoint.Manifest
import MountSync.Proofs.Endpoint.Turn
import MountSync.Proofs.Frame.RoundTrip

namespace MountSync

/-- Frames that are read back need nothing behind them. -/
theorem ClientFrame.decode_encode_nil {f : ClientFrame} (h : f.Fits) : decode f.encode = .ok f := by
  have read := decode_encode h []
  rwa [List.append_nil] at read

theorem ServerFrame.decode_encode_nil {f : ServerFrame} (h : f.Fits) : decode f.encode = .ok f := by
  have read := decode_encode h []
  rwa [List.append_nil] at read

/-- The frame that ends the answer to a fetch. -/
def ServerFrame.ofFetched : Except Failure Nat → ServerFrame
  | .ok bytes => .reply (.fetched (.ofNat bytes))
  | .error failure => .refusal failure.status

/-- The frame that answers a call for the manifest. -/
def ServerFrame.ofManifest : Except Failure (List FileRecord) → ServerFrame
  | .ok records => .reply (.manifest records)
  | .error failure => .refusal failure.status

namespace Server

variable (s : Server) (times : Schedule) (timeout : UInt64) (rest : List Message)

/-- When the caller gives up. -/
def deadline : Deadline := .after times.arrival.instant timeout.toNat

/-- What is behind a call, as a store understands it. -/
def stream : List Arrival := rest.filterMap Message.arrival?

/-- A call is carried out, and its outcome is what is answered. -/
theorem serve_call (request : Request) (fits : request.Fits) :
    ∃ s', s.serve times (.ofClientFrame (.call timeout request) :: rest)
        = (s', frames (s.work (deadline times timeout) times (stream rest) request)) ∧
      s'.endpoint = (s.work (deadline times timeout) times (stream rest) request).endpoint ∧
      s'.busy = s.busy ∧ s'.config = s.config := by
  have call : ClientFrame.decode (ClientFrame.call timeout request).encode
      = .ok (.call timeout request) :=
    ClientFrame.decode_encode_nil (f := .call timeout request) fits
  have opening : Opening.read (.ofClientFrame (.call timeout request) :: rest)
      = some ⟨timeout, request, rest⟩ := by
    rw [Message.ofClientFrame, Opening.read, call]
  rw [serve, opening]
  exact ⟨_, rfl, rfl, rfl, rfl⟩

theorem work_of_canStart {request : Request} (starts : s.canStart request = true) :
    s.work (deadline times timeout) times (stream rest) request
      = s.endpoint.dispatch (deadline times timeout) times (stream rest) (s.limitWait request) :=
  if_pos starts

theorem work_of_not_canStart {request : Request} (waits : s.canStart request = false) :
    s.work (deadline times timeout) times (stream rest) request
      = s.endpoint.expire (stream rest) request := by
  rw [work, waits]
  exact if_neg Bool.false_ne_true

/-- A server without work starts every call at once. -/
theorem canStart_of_idle {s : Server} (idle : s.busy = 0) (request : Request) :
    s.canStart request = true := by
  have some : s.busy < s.workers := by
    rw [idle]
    exact Nat.lt_of_lt_of_le Nat.zero_lt_one (Nat.le_max_right ..)
  cases request with
  | changeNotification maxWait => rfl
  | _ => exact decide_eq_true some

/-- Whether a call has time left at each of its moments. -/
structure InTime (times : Schedule) (timeout : UInt64) : Prop where
  arrival : (deadline times timeout).isExpired times.arrival.instant = false
  decision : (deadline times timeout).isExpired times.decision.instant = false
  transfer : (deadline times timeout).isExpired times.transfer.instant = false

theorem InTime.positive {times : Schedule} {timeout : UInt64} (h : InTime times timeout) :
    0 < timeout := by
  have arrival := h.arrival
  rw [deadline, Deadline.isExpired_after, decide_eq_false_iff_not] at arrival
  show 0 < timeout.toNat
  omega

/-- A call that has any time at all is in time when it arrives. -/
theorem isExpired_arrival {timeout : UInt64} (positive : 0 < timeout) (times : Schedule) :
    (deadline times timeout).isExpired times.arrival.instant = false := by
  have some : 0 < timeout.toNat := positive
  rw [deadline, Deadline.isExpired_after]
  exact decide_eq_false (by omega)

/-! ### A store

The answer is one frame, and by it one can tell what has become of the mount.
-/

theorem dispatch_store {e e' : Endpoint} {h : StoreHeader} {d : Deadline}
    {brought left : List Arrival} {result : Except Failure String}
    (stored : e.storeFrom h d times brought = (e', result, left)) :
    e.dispatch d times brought (s.limitWait (.store h)) = ⟨e', result.map .stored, [], left⟩ := by
  simp only [limitWait, Endpoint.dispatch, stored]

/-- A store either puts its content in place and is answered by a reply, or is refused and leaves
the mount as it was. -/
theorem serve_store {h : StoreHeader} (fits : h.Fits) :
    ∃ s' answers,
      s.serve times (.ofClientFrame (.call timeout (.store h)) :: rest) = (s', answers) ∧
      ((answers = [.reply (.stored h.name)] ∧
          StoreCall.Takes s.endpoint h (deadline times timeout) times ∧
          ∃ content, Arrival.contentOf? (stream rest) = some content ∧
            s.endpoint.Stored h content times.transfer.calendar s'.endpoint) ∨
        (∃ status, answers = [.refusal status]) ∧
          s.endpoint.mount.SameAs s'.endpoint.mount) := by
  obtain ⟨s', served, endpoint, -, -⟩ := s.serve_call times timeout rest (.store h) fits
  refine ⟨s', _, served, ?_⟩
  rw [endpoint]
  cases starts : s.canStart (.store h) with
  | false =>
      rw [s.work_of_not_canStart times timeout rest starts]
      exact Or.inr ⟨⟨_, rfl⟩, .of_eq (s.endpoint.mount_expire (stream rest) (.store h))⟩
  | true =>
      rw [s.work_of_canStart times timeout rest starts]
      by_cases takes : StoreCall.Takes s.endpoint h (deadline times timeout) times
      · obtain ⟨e', result, left, stored, ends⟩ :=
          Endpoint.storeFrom_of_takes takes (stream rest)
        rw [s.dispatch_store times stored]
        generalize Arrival.contentOf? (stream rest) = brought at ends ⊢
        cases ends with
        | stored done => exact Or.inl ⟨rfl, takes, _, rfl, done⟩
        | unstored _ undone => exact Or.inr ⟨⟨_, rfl⟩, undone.mount⟩
      · obtain ⟨e', failure, left, stored, mount⟩ :=
          Endpoint.storeFrom_of_not_takes takes (stream rest)
        rw [s.dispatch_store times stored]
        exact Or.inr ⟨⟨_, rfl⟩, .of_eq mount⟩

/-- A store whose content comes to its end and is as announced is stored. -/
theorem serve_store_of_fulfilled {h : StoreHeader} (fits : h.Fits)
    (starts : s.canStart (.store h) = true)
    (takes : StoreCall.Takes s.endpoint h (deadline times timeout) times) {content : Bytes}
    (brought : Arrival.contentOf? (stream rest) = some content)
    (fulfilled : h.Fulfilled s.endpoint.mount content) :
    ∃ s', s.serve times (.ofClientFrame (.call timeout (.store h)) :: rest)
        = (s', [.reply (.stored h.name)]) ∧
      s.endpoint.Stored h content times.transfer.calendar s'.endpoint ∧
      s'.busy = s.busy ∧ s'.config = s.config := by
  obtain ⟨s', served, endpoint, busy, config⟩ := s.serve_call times timeout rest (.store h) fits
  obtain ⟨e', result, left, stored, ends⟩ := Endpoint.storeFrom_of_takes takes (stream rest)
  rw [s.work_of_canStart times timeout rest starts, s.dispatch_store times stored]
    at served endpoint
  rw [brought] at ends
  cases ends with
  | stored done =>
      refine ⟨s', served, ?_, busy, config⟩
      rw [endpoint]
      exact done
  | unstored unfulfilled _ => exact absurd fulfilled (unfulfilled content rfl)

/-- A store of the copy that is there is told so, and its lock is let go of. -/
theorem serve_store_of_upToDate {h : StoreHeader} (fits : h.Fits)
    (starts : s.canStart (.store h) = true) (positive : 0 < timeout)
    (accepted : Mount.accepts h.name = true)
    (owner : s.endpoint.locks.ownerOf h.name = some h.client) {record : FileRecord}
    (stat : s.endpoint.mount.statFile h.name = .ok (some record))
    (same : record.checksum = h.checksum) :
    ∃ s', s.serve times (.ofClientFrame (.call timeout (.store h)) :: rest)
        = (s', [.refusal (Failure.upToDateOnServer h.name).status]) ∧
      s'.endpoint.mount = s.endpoint.mount ∧
      s.endpoint.Disposed h.name h.client s'.endpoint ∧
      s'.busy = s.busy ∧ s'.config = s.config := by
  obtain ⟨s', served, endpoint, busy, config⟩ := s.serve_call times timeout rest (.store h) fits
  have arrival := isExpired_arrival positive times
  obtain ⟨e', left, stored, mount, disposed⟩ :=
    Endpoint.storeFrom_of_upToDate accepted arrival owner stat same (stream rest)
  rw [s.work_of_canStart times timeout rest starts, s.dispatch_store times stored]
    at served endpoint
  refine ⟨s', served, ?_, ?_, busy, config⟩
  · rw [endpoint]
    exact mount
  · rw [endpoint]
    exact disposed

/-! ### A fetch

The messages go out before the result is known, so a fetch that fails may have sent some.
-/

theorem dispatch_fetch {e e' : Endpoint} {name : String} {mine : Option FileVersion} {d : Deadline}
    {brought : List Arrival} {result : Except Failure Nat} {messages : List FetchChunk}
    (fetched : e.fetch name mine d times (fun _ => readLimit) (fun _ => .delivered)
      = (e', result, messages)) :
    e.dispatch d times brought (s.limitWait (.fetch name mine))
      = ⟨e', result.map fun bytes => .fetched (.ofNat bytes), messages, brought⟩ := by
  simp only [limitWait, Endpoint.dispatch, fetched]

/-- The messages of a fetch come before the frame that tells its result. -/
theorem frames_fetch (e : Endpoint) (result : Except Failure Nat) (messages : List FetchChunk)
    (brought : List Arrival) :
    frames ⟨e, result.map fun bytes => .fetched (.ofNat bytes), messages, brought⟩
      = messages.map .fetch ++ [ServerFrame.ofFetched result] := by
  cases result <;> rfl

/-- A fetch is answered by what it sends, and changes neither the mount nor a lock. -/
theorem serve_fetch {name : String} (fits : Frame.TextFits name) (mine : Option FileVersion) :
    ∃ s' result messages,
      s.serve times (.ofClientFrame (.call timeout (.fetch name mine)) :: rest)
        = (s', messages.map .fetch ++ [ServerFrame.ofFetched result]) ∧
      s'.endpoint.mount = s.endpoint.mount ∧
      s.endpoint.Fetches name mine result messages := by
  obtain ⟨s', served, endpoint, -, -⟩ := s.serve_call times timeout rest (.fetch name mine) fits
  cases starts : s.canStart (.fetch name mine) with
  | false =>
      rw [s.work_of_not_canStart times timeout rest starts] at served endpoint
      refine ⟨s', .error .deadlineExceeded, [], served, ?_, .refused nofun⟩
      rw [endpoint]
      exact s.endpoint.mount_expire (stream rest) (.fetch name mine)
  | true =>
      obtain ⟨e', result, messages, fetched, mount, -, fetches⟩ :=
        s.endpoint.fetches name mine (deadline times timeout) times
      rw [s.work_of_canStart times timeout rest starts, s.dispatch_fetch times fetched]
        at served endpoint
      rw [frames_fetch] at served
      refine ⟨s', result, messages, served, ?_, fetches⟩
      rw [endpoint]
      exact mount

section

variable {s times timeout} {name : String} {mine : Option FileVersion}

/-- A fetch of a copy that the caller shall have is answered by all of it. -/
theorem serve_fetch_of_proceed (fits : Frame.TextFits name) (idle : s.busy = 0)
    (intime : InTime times timeout) (accepted : Mount.accepts name = true) {p : Place} {f : File}
    (found : s.endpoint.mount.locate name = .ok (p, .file f)) (plain : f.IsPlain)
    (proceeds : resolve .fetch mine (Mount.recordOf name f f.content).version = .proceed) :
    ∃ s' messages, s.serve times (.ofClientFrame (.call timeout (.fetch name mine)) :: rest)
        = (s', messages.map .fetch ++ [.reply (.fetched (.ofNat f.content.length))]) ∧
      messages ≠ [] ∧ FetchChunk.Bring messages f.content ∧
      s'.endpoint.mount = s.endpoint.mount ∧ s'.endpoint.locks = s.endpoint.locks := by
  obtain ⟨s', served, endpoint, -, -⟩ := s.serve_call times timeout rest (.fetch name mine) fits
  obtain ⟨e', result, messages, fetched, mount, locks, whole, -⟩ :=
    Endpoint.fetch_of_proceed accepted found plain.read intime.decision proceeds
  obtain ⟨rfl, some, bring⟩ := whole ⟨intime.transfer, Nat.le_of_eq plain.toNat_size⟩
  rw [s.work_of_canStart times timeout rest (canStart_of_idle idle _),
    s.dispatch_fetch times fetched] at served endpoint
  rw [frames_fetch, ServerFrame.ofFetched, plain.toNat_size] at served
  rw [plain.toNat_size, List.take_length] at bring
  refine ⟨s', messages, served, some, bring, ?_, ?_⟩
  · rw [endpoint]
    exact mount
  · rw [endpoint]
    exact locks

/-- A fetch of the copy that the caller has is told so. -/
theorem serve_fetch_of_upToDate (fits : Frame.TextFits name) (idle : s.busy = 0)
    (intime : InTime times timeout) {record : FileRecord} {version : FileVersion}
    (stat : s.endpoint.mount.statFile name = .ok (some record))
    (same : version.checksum = record.checksum) :
    ∃ s', s.serve times (.ofClientFrame (.call timeout (.fetch name (some version))) :: rest)
        = (s', [.fetch (.skip record), .refusal (Failure.upToDateOnClient name).status]) ∧
      s'.endpoint.mount = s.endpoint.mount ∧ s'.endpoint.locks = s.endpoint.locks := by
  obtain ⟨s', served, endpoint, -, -⟩ :=
    s.serve_call times timeout rest (.fetch name (some version)) fits
  have resolved : resolve .fetch (some version) record.version = .alreadySynced := if_pos same
  have fetched := Endpoint.fetch_of_declined stat intime.decision (Or.inl ⟨resolved, rfl⟩)
    fun _ => readLimit
  rw [s.work_of_canStart times timeout rest (canStart_of_idle idle _),
    s.dispatch_fetch times fetched] at served endpoint
  refine ⟨s', served, ?_, ?_⟩
  · rw [endpoint]
    rfl
  · rw [endpoint]
    rfl

end

/-! ### The other calls -/

/-- Asking for a lock changes nothing in the mount. -/
theorem serve_requestLock {name : String} {client : ClientId}
    (fits : (Request.requestLock name client).Fits) :
    ∃ s' answer, s.serve times (.ofClientFrame (.call timeout (.requestLock name client)) :: rest)
        = (s', [answer]) ∧
      s'.endpoint.mount = s.endpoint.mount := by
  obtain ⟨s', served, endpoint, -, -⟩ :=
    s.serve_call times timeout rest (.requestLock name client) fits
  cases starts : s.canStart (.requestLock name client) with
  | false =>
      rw [s.work_of_not_canStart times timeout rest starts] at served endpoint
      refine ⟨s', _, served, ?_⟩
      rw [endpoint]
      exact s.endpoint.mount_expire (stream rest) (.requestLock name client)
  | true =>
      rw [s.work_of_canStart times timeout rest starts] at served endpoint
      refine ⟨s', _, served, ?_⟩
      rw [endpoint]
      exact Traffic.mount_requestLock ..

/-- A caller that nobody keeps from it is granted the lock. -/
theorem serve_requestLock_of_free {name : String} {client : ClientId}
    (fits : (Request.requestLock name client).Fits)
    (starts : s.canStart (.requestLock name client) = true) (positive : 0 < timeout)
    (accepted : Mount.accepts name = true)
    (free : ∀ owner, s.endpoint.locks.ownerOf name = some owner → owner = client) :
    ∃ s', s.serve times (.ofClientFrame (.call timeout (.requestLock name client)) :: rest)
        = (s', [.reply .empty]) ∧
      s'.endpoint.mount = s.endpoint.mount ∧
      s'.endpoint.locks.ownerOf name = some client ∧ s'.busy = s.busy ∧ s'.config = s.config := by
  obtain ⟨s', served, endpoint, busy, config⟩ :=
    s.serve_call times timeout rest (.requestLock name client) fits
  have intime := isExpired_arrival positive times
  have named : Mount.checkName name = .ok () := if_pos accepted
  obtain ⟨locks, acquired, owner⟩ : ∃ locks, s.endpoint.locks.acquire name client = (locks, true) ∧
      locks.ownerOf name = some client := by
    have granted : (s.endpoint.locks.acquire name client).2 = true := by
      unfold LockTable.acquire
      cases held : s.endpoint.locks.ownerOf name with
      | none => rfl
      | some owner =>
          dsimp only
          rw [if_pos (free owner held)]
    exact ⟨_, Prod.ext rfl granted, LockTable.ownerOf_acquire_of_granted granted⟩
  have asked : s.endpoint.requestLock name client (deadline times timeout) times.arrival.instant
      = (s.endpoint.withLocks locks, .ok ()) := by
    rw [Endpoint.requestLock, intime, if_neg Bool.false_ne_true, named]
    dsimp only
    rw [acquired]
  have dispatched : s.endpoint.dispatch (deadline times timeout) times (stream rest)
      (s.limitWait (.requestLock name client))
        = ⟨s.endpoint.withLocks locks, .ok .empty, [], stream rest⟩ := by
    show Outcome.plain (stream rest) (fun _ => Reply.empty)
      (s.endpoint.requestLock name client (deadline times timeout) times.arrival.instant) = _
    rw [asked]
    rfl
  rw [s.work_of_canStart times timeout rest starts, dispatched] at served endpoint
  refine ⟨s', served, ?_, ?_, busy, config⟩
  · rw [endpoint]
    rfl
  · rw [endpoint]
    exact owner

/-- A caller is refused a lock that another client holds, and told who holds it. -/
theorem serve_requestLock_of_held {name : String} {client owner : ClientId}
    (fits : (Request.requestLock name client).Fits)
    (starts : s.canStart (.requestLock name client) = true) (positive : 0 < timeout)
    (accepted : Mount.accepts name = true)
    (held : s.endpoint.locks.ownerOf name = some owner) (foreign : owner ≠ client) :
    ∃ s', s.serve times (.ofClientFrame (.call timeout (.requestLock name client)) :: rest)
        = (s', [.refusal (Failure.locked name (some owner)).status]) ∧
      s'.endpoint.mount = s.endpoint.mount ∧
      s'.endpoint.locks.ownerOf name = some owner := by
  obtain ⟨s', served, endpoint, -, -⟩ :=
    s.serve_call times timeout rest (.requestLock name client) fits
  have intime := isExpired_arrival positive times
  have named : Mount.checkName name = .ok () := if_pos accepted
  obtain ⟨locks, refused, owner'⟩ : ∃ locks,
      s.endpoint.locks.acquire name client = (locks, false) ∧ locks.ownerOf name = some owner := by
    have denied : (s.endpoint.locks.acquire name client).2 = false := by
      unfold LockTable.acquire
      rw [held]
      dsimp only
      rw [if_neg foreign]
    refine ⟨_, Prod.ext rfl denied, ?_⟩
    rw [LockTable.ownerOf_acquire, held]
    rfl
  have asked : s.endpoint.requestLock name client (deadline times timeout) times.arrival.instant
      = (s.endpoint.withLocks locks, .error (.locked name (some owner))) := by
    rw [Endpoint.requestLock, intime, if_neg Bool.false_ne_true, named]
    dsimp only
    rw [refused]
    dsimp only
    rw [owner']
  have dispatched : s.endpoint.dispatch (deadline times timeout) times (stream rest)
      (s.limitWait (.requestLock name client))
        = ⟨s.endpoint.withLocks locks, .error (.locked name (some owner)), [], stream rest⟩ := by
    show Outcome.plain (stream rest) (fun _ => Reply.empty)
      (s.endpoint.requestLock name client (deadline times timeout) times.arrival.instant) = _
    rw [asked]
    rfl
  rw [s.work_of_canStart times timeout rest starts, dispatched] at served endpoint
  refine ⟨s', served, ?_, ?_⟩
  · rw [endpoint]
    rfl
  · rw [endpoint]
    exact owner'

/-- Waiting for a change is answered by the manifest of the mount as it is, or by why there is
none. -/
theorem serve_changeNotification (maxWait : UInt64) :
    ∃ s', s.serve times (.ofClientFrame (.call timeout (.changeNotification maxWait)) :: rest)
        = (s', [.ofManifest s.endpoint.mount.enumerate]) ∧
      s'.endpoint.mount = s.endpoint.mount ∧ s'.endpoint.locks = s.endpoint.locks := by
  obtain ⟨s', served, endpoint, -, -⟩ :=
    s.serve_call times timeout rest (.changeNotification maxWait) trivial
  rw [s.work_of_canStart times timeout rest rfl] at served endpoint
  obtain ⟨locks, mount⟩ := s.endpoint.locks_manifest times.arrival.instant
    (UInt64.ofNat (min maxWait.toNat s.config.maxNotifyWait)).toNat (deadline times timeout)
  refine ⟨s', ?_, ?_, ?_⟩
  · have result : (s.endpoint.dispatch (deadline times timeout) times (stream rest)
        (s.limitWait (.changeNotification maxWait))).result
          = s.endpoint.mount.enumerate.map .manifest :=
      congrArg (Except.map Reply.manifest) (s.endpoint.manifest_eq ..)
    rw [served, frames, result]
    cases s.endpoint.mount.enumerate <;> rfl
  · rw [endpoint]
    exact mount
  · rw [endpoint]
    exact locks

end Server

end MountSync
