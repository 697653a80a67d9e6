/-
A server whose locks are all free.

A call for a lock then is granted, or nothing comes of it; the call under the lock that follows
leaves all locks free again, and so does every other call.  As long as this goes on nobody is told
that a lock is somebody else's.
-/
import MountSync.Proofs.Endpoint.Disposal
import MountSync.Proofs.Endpoint.Refusal
import MountSync.Proofs.Server.Kind
import MountSync.Proofs.Server.Late

namespace MountSync

/-- A frame that says that somebody else holds a lock. -/
def ServerFrame.Exhausts (f : ServerFrame) : Prop :=
  ∃ status, f = .refusal status ∧ status.code = .resourceExhausted

/-- The code of a failure is that of its kind. -/
theorem Failure.kind_of_code {g : Failure} (h : g.status.code = .resourceExhausted) :
    g.kind = .resourceExhausted := by
  have code : g.kind.code = .resourceExhausted := h
  cases kind : g.kind with
  | resourceExhausted => rfl
  | _ =>
      rw [kind] at code
      exact nomatch code

/-- Only the result of a call says so. -/
theorem Server.exhausts_frames {o : Outcome} {f : ServerFrame} (mem : f ∈ frames o)
    (exhausts : f.Exhausts) : ∃ g, o.result = .error g ∧ g.kind = .resourceExhausted := by
  obtain ⟨status, rfl, code⟩ := exhausts
  rw [frames_eq] at mem
  rcases List.mem_append.1 mem with chunk | result
  · obtain ⟨c, -, is⟩ := List.mem_map.1 chunk
    exact nomatch is
  · have is := List.mem_singleton.1 result
    cases told : o.result with
    | ok reply =>
        rw [told] at is
        exact nomatch is
    | error g =>
        rw [told] at is
        cases is
        exact ⟨g, rfl, Failure.kind_of_code code⟩

namespace Endpoint

/-- Whether nobody owns any file. -/
def Unlocked (e : Endpoint) : Prop := ∀ file, e.locks.ownerOf file = none

/-- Whether nobody owns any file, but one client perhaps one. -/
def HeldBy (e : Endpoint) (name : String) (client : ClientId) : Prop :=
  ∀ file owner, e.locks.ownerOf file = some owner → file = name ∧ owner = client

variable {e : Endpoint} {name : String} {client : ClientId}

/-- Where nobody is made an owner there still is none. -/
theorem Unlocked.mono {e' : Endpoint} (h : e.Unlocked)
    (before : ∀ file owner, e'.locks.ownerOf file = some owner →
      e.locks.ownerOf file = some owner) : e'.Unlocked := by
  intro file
  by_contra some
  obtain ⟨owner, owned⟩ := Option.ne_none_iff_exists'.1 some
  exact nomatch (h file).symm.trans (before file owner owned)

/-- Who makes nobody an owner and leaves the one client without the file leaves no owners. -/
theorem HeldBy.unlocked {e' : Endpoint} (h : e.HeldBy name client)
    (before : ∀ file owner, e'.locks.ownerOf file = some owner → e.locks.ownerOf file = some owner)
    (free : e'.locks.ownerOf name ≠ some client) : e'.Unlocked := by
  intro file
  by_contra some
  obtain ⟨owner, owned⟩ := Option.ne_none_iff_exists'.1 some
  obtain ⟨rfl, rfl⟩ := h file owner (before file owner owned)
  exact free owned

/-- A lock that nobody holds is granted, unless the call is too late or the name is none. -/
theorem Unlocked.requestLock (h : e.Unlocked) (name : String) (client : ClientId)
    (deadline : Deadline) (now : Nat) :
    (∃ e', e.requestLock name client deadline now = (e', .ok ()) ∧ Mount.accepts name = true ∧
        e'.HeldBy name client) ∨
      ∃ g, e.requestLock name client deadline now = (e, .error g) ∧
        g.kind ≠ .resourceExhausted := by
  by_cases late : deadline.isExpired now = true
  · exact Or.inr ⟨.deadlineExceeded, if_pos late, nofun⟩
  cases accepted : Mount.accepts name with
  | false =>
      refine Or.inr ⟨.invalidName name, ?_, nofun⟩
      rw [Endpoint.requestLock, if_neg late, Mount.checkName_of_refused accepted]
  | true =>
      have named : Mount.checkName name = .ok () := if_pos accepted
      obtain ⟨locks, acquired⟩ : ∃ locks, e.locks.acquire name client = (locks, true) := by
        rw [LockTable.acquire, h name]
        exact ⟨_, rfl⟩
      refine Or.inl ⟨e.withLocks locks, ?_, rfl, ?_⟩
      · rw [Endpoint.requestLock, if_neg late, named]
        dsimp only
        rw [acquired]
      · intro file owner owned
        have made : locks = (e.locks.acquire name client).1 := (congrArg Prod.fst acquired).symm
        have owned' : locks.ownerOf file = some owner := owned
        by_cases same : file = name
        · subst same
          rw [made, LockTable.ownerOf_acquire, h file] at owned'
          exact ⟨rfl, (Option.some.inj owned').symm⟩
        · rw [made, LockTable.ownerOf_acquire_ne same, h file] at owned'
          cases owned'

/-- A call under a lock leaves its caller without it. -/
theorem not_owner_dispatch (e : Endpoint) (deadline : Deadline) (s : Schedule)
    (stream : List Arrival) {request : Request} (holder : request.lockHolder? = some (name, client))
    (accepted : Mount.accepts name = true) :
    (e.dispatch deadline s stream request).endpoint.locks.ownerOf name ≠ some client := by
  cases request with
  | store header =>
      cases holder
      exact e.not_owner_storeFrom accepted deadline s stream
  | delete file caller =>
      cases holder
      exact e.not_owner_delete accepted client deadline s
  | _ => exact nomatch holder

theorem not_owner_expire (e : Endpoint) (stream : List Arrival) {request : Request}
    (holder : request.lockHolder? = some (name, client)) (accepted : Mount.accepts name = true) :
    (e.expire stream request).endpoint.locks.ownerOf name ≠ some client := by
  have given : (e.expire stream request).endpoint = e.abandonExpired name client := by
    rw [expire, holder]
  rw [given, e.abandonExpired_eq accepted]
  exact e.not_owner_disposeLock name client _

end Endpoint

namespace Server

variable {s : Server} {times : Schedule} {timeout : UInt64} {request : Request}
  {rest : List Message}

theorem limitWait_ne (s : Server) (other : ∀ name client, request ≠ .requestLock name client)
    (name : String) (client : ClientId) : s.limitWait request ≠ .requestLock name client := by
  cases request with
  | changeNotification maxWait => exact nofun
  | _ => exact other name client

/-! ### One call

What is read of a call need not be what was sent, but it is a call of the same kind.
-/

theorem ownerOf_of_work (other : ∀ name client, request ≠ .requestLock name client)
    {file : String} {owner : ClientId}
    (owned : (s.work (deadline times timeout) times (stream rest) request).endpoint.locks.ownerOf
      file = some owner) : s.endpoint.locks.ownerOf file = some owner := by
  unfold work at owned
  split at owned
  · exact Endpoint.ownerOf_of_dispatch (s.limitWait_ne other) owned
  · exact Endpoint.ownerOf_of_expire owned

theorem kind_of_work (other : ∀ name client, request ≠ .requestLock name client) {g : Failure}
    (failed : (s.work (deadline times timeout) times (stream rest) request).result = .error g) :
    g.kind ≠ .resourceExhausted := by
  have brings : ∀ a ∈ stream rest, ∀ g, a.failure? = some g → g.Plain := by
    intro a mem g brought
    obtain ⟨m, -, arrives⟩ := List.mem_filterMap.1 mem
    exact plain_of_arrival arrives brought
  unfold work at failed
  split at failed
  · exact Endpoint.kind_of_dispatch (s.limitWait_ne other) brings failed
  · cases failed
    exact nofun

theorem not_exhausts_work (other : ∀ name client, request ≠ .requestLock name client)
    {f : ServerFrame}
    (mem : f ∈ frames (s.work (deadline times timeout) times (stream rest) request)) :
    ¬ f.Exhausts := by
  intro exhausts
  obtain ⟨g, failed, kind⟩ := exhausts_frames mem exhausts
  exact kind_of_work other failed kind

/-- **A call under a lock leaves all locks free, if no other lock was held.** -/
theorem unlocked_work {name : String} {client : ClientId}
    (holder : request.lockHolder? = some (name, client)) (accepted : Mount.accepts name = true)
    (held : s.endpoint.HeldBy name client) :
    (s.work (deadline times timeout) times (stream rest) request).endpoint.Unlocked := by
  have other : ∀ name client, request ≠ .requestLock name client := by
    rintro name client rfl
    exact nomatch holder
  refine held.unlocked (fun _ _ => ownerOf_of_work other) ?_
  have same : (s.limitWait request).lockHolder? = some (name, client) := by
    cases request with
    | changeNotification maxWait => exact nomatch holder
    | _ => exact holder
  unfold work
  split
  · exact s.endpoint.not_owner_dispatch _ times (stream rest) same accepted
  · exact s.endpoint.not_owner_expire (stream rest) holder accepted

/-! ### Connections -/

/-- What is read of a call is carried out. -/
theorem serve_of_read (s : Server) (times : Schedule) (rest : List Message) {request' : Request}
    (read : ClientFrame.decode (ClientFrame.call timeout request).encode
      = .ok (.call timeout request')) :
    ∃ s', s.serve times (.ofClientFrame (.call timeout request) :: rest)
        = (s', frames (s.work (deadline times timeout) times (stream rest) request')) ∧
      s'.endpoint = (s.work (deadline times timeout) times (stream rest) request').endpoint := by
  have opening : Opening.read (.ofClientFrame (.call timeout request) :: rest)
      = some ⟨timeout, request', rest⟩ := by
    rw [Message.ofClientFrame, Opening.read, read]
  rw [serve, opening]
  exact ⟨_, rfl, rfl⟩

/-- Of what cannot be read nothing comes. -/
theorem serve_of_unread (s : Server) (times : Schedule) (rest : List Message)
    {fault : Frame.DecodeFault}
    (read : ClientFrame.decode (ClientFrame.call timeout request).encode = .error fault) :
    ∃ s', s.serve times (.ofClientFrame (.call timeout request) :: rest) = (s', []) ∧
      s'.endpoint = s.endpoint := by
  have unread : Opening.read (.ofClientFrame (.call timeout request) :: rest) = none := by
    rw [Message.ofClientFrame, Opening.read, read]
  rw [serve, unread]
  exact ⟨_, rfl, rfl⟩

/-- A lock that nobody holds is granted, or nothing comes of the call for it. -/
theorem serve_requestLock_of_unlocked (s : Server) (unlocked : s.endpoint.Unlocked)
    (times : Schedule) {name : String} {client : ClientId}
    (read : ClientFrame.decode (ClientFrame.call timeout request).encode
      = .ok (.call timeout (.requestLock name client))) :
    ∃ s' answers, s.serve times [.ofClientFrame (.call timeout request)] = (s', answers) ∧
      (∀ f ∈ answers, ¬ f.Exhausts) ∧
      (answers = [.reply .empty] ∧ Mount.accepts name = true ∧ s'.endpoint.HeldBy name client ∨
        (∃ status, answers = [.refusal status]) ∧ s'.endpoint.Unlocked) := by
  obtain ⟨s', served, endpoint⟩ := s.serve_of_read times [] read
  have refused : ∀ g : Failure, g.kind ≠ .resourceExhausted →
      ∀ f ∈ [ServerFrame.refusal g.status], ¬ f.Exhausts := by
    rintro g kind f mem ⟨status, rfl, code⟩
    cases List.mem_singleton.1 mem
    exact kind (Failure.kind_of_code code)
  cases starts : s.canStart (.requestLock name client) with
  | false =>
      rw [s.work_of_not_canStart times timeout [] starts] at served endpoint
      exact ⟨s', _, served, refused .deadlineExceeded nofun,
        Or.inr ⟨⟨_, rfl⟩, endpoint ▸ unlocked⟩⟩
  | true =>
      rw [s.work_of_canStart times timeout [] starts] at served endpoint
      have dispatched : s.endpoint.dispatch (deadline times timeout) times (stream [])
          (s.limitWait (.requestLock name client)) = .plain (stream []) (fun _ => Reply.empty)
            (s.endpoint.requestLock name client (deadline times timeout) times.arrival.instant) :=
        rfl
      rw [dispatched] at served endpoint
      rcases unlocked.requestLock name client (deadline times timeout) times.arrival.instant with
        ⟨e', granted, accepted, held⟩ | ⟨g, failed, kind⟩
      · rw [granted] at served endpoint
        refine ⟨s', _, served, ?_, Or.inl ⟨rfl, accepted, endpoint ▸ held⟩⟩
        rintro f mem ⟨status, rfl, -⟩
        exact nomatch List.mem_singleton.1 mem
      · rw [failed] at served endpoint
        exact ⟨s', _, served, refused g kind, Or.inr ⟨⟨_, rfl⟩, endpoint ▸ unlocked⟩⟩

/-- A call under the only lock that is held leaves all locks free. -/
theorem serve_of_heldBy (s : Server) {name : String} {client : ClientId}
    (held : s.endpoint.HeldBy name client) (accepted : Mount.accepts name = true)
    (times : Schedule) (rest : List Message) {request' : Request}
    (read : ClientFrame.decode (ClientFrame.call timeout request).encode
      = .ok (.call timeout request')) (holder : request'.lockHolder? = some (name, client)) :
    ∃ s' answers, s.serve times (.ofClientFrame (.call timeout request) :: rest) = (s', answers) ∧
      (∀ f ∈ answers, ¬ f.Exhausts) ∧ s'.endpoint.Unlocked := by
  obtain ⟨s', served, endpoint⟩ := s.serve_of_read times rest read
  have other : ∀ name client, request' ≠ .requestLock name client := by
    rintro name client rfl
    exact nomatch holder
  exact ⟨s', _, served, fun f => not_exhausts_work other,
    endpoint ▸ unlocked_work holder accepted held⟩

/-- A call that is for no lock, whatever is read of it, leaves all locks free. -/
theorem serve_of_unlocked (s : Server) (unlocked : s.endpoint.Unlocked)
    (noLock : ¬ Reply.empty.Suits request) (times : Schedule) (timeout : UInt64)
    (rest : List Message) :
    ∃ s' answers, s.serve times (.ofClientFrame (.call timeout request) :: rest) = (s', answers) ∧
      (∀ f ∈ answers, ¬ f.Exhausts) ∧ s'.endpoint.Unlocked := by
  cases read : ClientFrame.decode (ClientFrame.call timeout request).encode with
  | error fault =>
      obtain ⟨s', served, endpoint⟩ := s.serve_of_unread times rest read
      exact ⟨s', _, served, nofun, endpoint ▸ unlocked⟩
  | ok frame =>
      obtain ⟨request', rfl, alike⟩ := ClientFrame.decode_call read
      obtain ⟨s', served, endpoint⟩ := s.serve_of_read times rest read
      have other : ∀ name client, request' ≠ .requestLock name client := by
        rintro name client rfl
        exact noLock (alike .empty trivial)
      exact ⟨s', _, served, fun f => not_exhausts_work other,
        endpoint ▸ unlocked.mono fun _ _ => ownerOf_of_work other⟩

end Server

end MountSync
