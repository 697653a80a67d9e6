/-
Calls that come too late.

A call whose deadline has passed when it arrives does nothing, but for letting go of the lock that
it was to be made under.  What it is told is another matter.  Most calls look at the clock before
they look at anything else, and so does a server that has nobody to work on a call.  A fetch looks
for its file first, and a delete for its lock and then for its file; if these are missing that is
what the caller is told.  And a call for the manifest does not look at the clock at all: its
deadline only says how long it may wait.
-/
import MountSync.Proofs.Endpoint.Disposal
import MountSync.Proofs.Endpoint.Manifest
import MountSync.Proofs.Endpoint.Store
import MountSync.Server.Basic

namespace MountSync

/-! ### Failures that are not about the deadline -/

namespace Mount

variable {m : Mount} {failure : Failure}

/-- Looking at a file takes no time. -/
theorem code_of_statFile {name : String} (h : m.statFile name = .error failure) :
    failure.code ≠ .deadlineExceeded := by
  rcases failure_of_statFile h with rfl | ⟨fault, rfl⟩
  · exact nofun
  · exact nofun

theorem code_of_enumerate (h : m.enumerate = .error failure) :
    failure.code ≠ .deadlineExceeded := by
  rcases failure_of_enumerate h with ⟨name, rfl⟩ | ⟨fault, rfl⟩
  · exact nofun
  · exact nofun

end Mount

namespace Endpoint

variable {e : Endpoint} {deadline : Deadline} {s : Schedule} {name : String} {client : ClientId}

/-- What an expired call finds to be wrong before it looks at the clock, if it looks at all. -/
def toldFirst? (e : Endpoint) : Request → Option (Except Failure Reply)
  | .fetch name _ =>
    match e.mount.statFile name with
    | .error failure => some (.error failure)
    | .ok none => some (.error (.notOnServer name))
    | .ok (some _) => none
  | .delete name client =>
    if e.locks.isOwner name client then
      if e.fileExists name then none else some (.error (.notOnServer name))
    else some (.error (.notLockHolder client name))
  | .changeNotification _ => some (e.mount.enumerate.map .manifest)
  | _ => none

/-- Whatever is told first, it is not that the deadline has passed. -/
theorem ne_late_of_toldFirst {request : Request} {told : Except Failure Reply}
    (h : e.toldFirst? request = some told) :
    ∀ failure, told = .error failure → failure.code ≠ .deadlineExceeded := by
  rintro failure rfl
  unfold toldFirst? at h
  split at h
  · split at h
    · rename_i refused
      cases h
      exact Mount.code_of_statFile refused
    · cases h
      exact nofun
    · exact nomatch h
  · split at h
    · split at h <;> cases h
      exact nofun
    · cases h
      exact nofun
  · cases made : e.mount.enumerate with
    | ok records =>
        rw [made] at h
        exact nomatch h
    | error refusal =>
        rw [made] at h
        cases h
        exact Mount.code_of_enumerate made
  · exact nomatch h

/-- An endpoint with the lock of a call let go of, if the call was to be made under one. -/
def withoutLock (e : Endpoint) (request : Request) : Endpoint :=
  match request.lockHolder? with
  | some (name, client) => e.disposeLock name client (e.fileExists name)
  | none => e

/-! ### Each call that comes too late

What is looked at before the clock differs from call to call, so each has a statement of its own.
-/

theorem requestLock_late (arrival : deadline.isExpired s.arrival.instant = true) :
    e.requestLock name client deadline s.arrival.instant = (e, .error .deadlineExceeded) :=
  if_pos arrival

theorem stat_late (arrival : deadline.isExpired s.arrival.instant = true) :
    e.stat name deadline s.arrival.instant = .error .deadlineExceeded :=
  if_pos arrival

theorem compareMtime_late (arrival : deadline.isExpired s.arrival.instant = true)
    (mtime : UnixTime) :
    e.compareMtime name mtime deadline s.arrival.instant = .error .deadlineExceeded := by
  rw [compareMtime, stat_late arrival]

theorem probe_late (arrival : deadline.isExpired s.arrival.instant = true) (sum : UInt32) :
    e.probe name client sum deadline s.arrival = (e, .error .deadlineExceeded) := by
  have first : (ProbeCall.begin name client sum deadline).step e s.arrival
      = (e, (ProbeCall.begin name client sum deadline).finish (.error .deadlineExceeded)) := by
    have late : e.stat (ProbeCall.begin name client sum deadline).name
        (ProbeCall.begin name client sum deadline).deadline s.arrival.instant
          = .error .deadlineExceeded := stat_late arrival
    unfold ProbeCall.step
    dsimp only [ProbeCall.begin] at late ⊢
    rw [late]
  rw [probe, first]
  rfl

/-- A call for the manifest that may not wait any more is answered at once. -/
theorem manifest_late (arrival : deadline.isExpired s.arrival.instant = true) (maxWait : Nat) :
    (e.manifest s.arrival.instant maxWait deadline).1 = e := by
  have none : min maxWait (deadline.remaining s.arrival.instant) = 0 := by
    rw [(deadline.isExpired_iff_remaining _).1 arrival, Nat.min_zero]
  rw [manifest, ManifestCall.begin, if_pos none]
  rfl

/-- A store looks at its name, at the clock and then at its lock. -/
theorem storeFrom_late {h : StoreHeader} (accepted : Mount.accepts h.name = true)
    (arrival : deadline.isExpired s.arrival.instant = true) (stream : List Arrival) :
    e.storeFrom h deadline s stream
      = (e.disposeLock h.name h.client (e.fileExists h.name), .error .deadlineExceeded,
        stream) := by
  obtain ⟨e', c', entered, disposed, finished⟩ : ∃ e' c',
      (StoreCall.begin h deadline).enter e s = (e', c') ∧
        e' = e.disposeLock h.name h.client (e.fileExists h.name) ∧
        c'.phase = .finished (.error .deadlineExceeded) := by
    have first : (StoreCall.begin h deadline).step e s.arrival
        = (e, (StoreCall.begin h deadline).goTo .expired) := by
      have accepted' : Mount.checkName (StoreCall.begin h deadline).name = .ok () :=
        if_pos accepted
      show (e, (StoreCall.begin h deadline).checkCaller e s.arrival) = _
      rw [StoreCall.checkCaller, accepted']
      exact congrArg (Prod.mk e) (if_pos arrival)
    rw [StoreCall.enter_eq first]
    cases owner : e.locks.isOwner h.name h.client with
    | false =>
        have second : ((StoreCall.begin h deadline).goTo .expired).step e s.decision
            = (e, (StoreCall.begin h deadline).fail .deadlineExceeded) :=
          if_neg (Bool.not_eq_true _ ▸ owner)
        rw [second, disposeLock_of_not_owner owner]
        exact ⟨_, _, rfl, rfl, rfl⟩
    | true =>
        have second : ((StoreCall.begin h deadline).goTo .expired).step e s.decision
            = (e, (StoreCall.begin h deadline).goTo (.givingUp .deadlineExceeded)) :=
          if_pos owner
        rw [second]
        exact ⟨_, _, StoreCall.settle_givingUp rfl, rfl, rfl⟩
  have drunk : c'.drink e' s.transfer stream = (e', c', stream) := by
    cases stream with
    | nil =>
        have taken : c'.take e' s.transfer .late = (e', c') := by rw [StoreCall.take, finished]
        rw [StoreCall.drink, StoreCall.takeAndSettle, taken]
        dsimp only
        rw [StoreCall.settle_finished finished]
    | cons a rest =>
        have waits : c'.isReceiving = false := by rw [StoreCall.isReceiving, finished]
        rw [StoreCall.drink, waits, if_neg Bool.false_ne_true]
  rw [storeFrom, entered]
  dsimp only
  rw [drunk, StoreCall.result?, finished, disposed]
  rfl

/-- A fetch looks for its file, and then at the clock. -/
theorem fetch_late (e : Endpoint) (name : String) (mine : Option FileVersion)
    (decision : deadline.isExpired s.decision.instant = true) :
    ∃ failure, e.fetch name mine deadline s (fun _ => readLimit) (fun _ => .delivered)
        = (e, .error failure, []) ∧
      (e.toldFirst? (.fetch name mine)).getD (.error .deadlineExceeded) = .error failure := by
  have early : ∀ {c₁ c₂ : FetchCall} {failure},
      (FetchCall.begin name mine deadline).step e s.arrival readLimit = (e, c₁) →
      c₁.step e s.decision readLimit = (e, c₂) → c₂.phase = .finished (.error failure) →
      e.fetch name mine deadline s (fun _ => readLimit) (fun _ => .delivered)
        = (e, .error failure, []) := by
    intro c₁ c₂ failure first second finished
    exact fetch_of_finished (FetchCall.enter_of_still first second
      fun now => FetchCall.step_finished finished readLimit) finished
  have lookUp : (FetchCall.begin name mine deadline).step e s.arrival readLimit
      = (e, (FetchCall.begin name mine deadline).lookUp e) := rfl
  unfold FetchCall.lookUp at lookUp
  rw [toldFirst?]
  cases stat : e.mount.statFile name with
  | error failure =>
      dsimp only [FetchCall.begin] at lookUp
      rw [stat] at lookUp
      exact ⟨failure, early lookUp (FetchCall.step_finished rfl readLimit) rfl, rfl⟩
  | ok found =>
      cases found with
      | none =>
          dsimp only [FetchCall.begin] at lookUp
          rw [stat] at lookUp
          exact ⟨_, early lookUp (FetchCall.step_finished rfl readLimit) rfl, rfl⟩
      | some record =>
          have second : ((FetchCall.begin name mine deadline).goTo (.found record)).step e
              s.decision readLimit
                = (e, ((FetchCall.begin name mine deadline).goTo (.found record)).fail
                  .deadlineExceeded) := if_pos decision
          exact ⟨_, early (FetchCall.step_begin_of_found stat readLimit) second rfl, rfl⟩

/-- A delete looks at its name, at its lock, for its file, and then at the clock. -/
theorem delete_late (e : Endpoint) (client : ClientId) (accepted : Mount.accepts name = true)
    (decision : deadline.isExpired s.decision.instant = true) :
    ∃ failure, e.delete name client deadline s
        = (e.disposeLock name client (e.fileExists name), .error failure) ∧
      (e.toldFirst? (.delete name client)).getD (.error .deadlineExceeded) = .error failure := by
  have accepted' : Mount.checkName (DeleteCall.begin name client deadline).name = .ok () :=
    if_pos accepted
  cases owner : e.locks.isOwner name client with
  | false =>
      have first : (DeleteCall.begin name client deadline).step e s.arrival
          = (e, (DeleteCall.begin name client deadline).fail (.notLockHolder client name)) := by
        show (e, (DeleteCall.begin name client deadline).checkCaller e) = _
        rw [DeleteCall.checkCaller, accepted']
        exact congrArg (Prod.mk e) (if_neg (Bool.not_eq_true _ ▸ owner))
      refine ⟨.notLockHolder client name, ?_, by rw [toldFirst?, owner]; rfl⟩
      rw [delete, first, disposeLock_of_not_owner owner]
      rfl
  | true =>
      have first : (DeleteCall.begin name client deadline).step e s.arrival
          = (e, (DeleteCall.begin name client deadline).goTo .owner) := by
        show (e, (DeleteCall.begin name client deadline).checkCaller e) = _
        rw [DeleteCall.checkCaller, accepted']
        exact congrArg (Prod.mk e) (if_pos owner)
      cases there : e.fileExists name with
      | false =>
          have second : ((DeleteCall.begin name client deadline).goTo .owner).step e s.decision
              = (e, (DeleteCall.begin name client deadline).goTo .absent) :=
            if_pos (by rw [Bool.not_eq_true']; exact there)
          refine ⟨.notOnServer name, ?_, by rw [toldFirst?, owner, there]; rfl⟩
          rw [delete, first]
          dsimp only
          rw [second]
          rfl
      | true =>
          have second : ((DeleteCall.begin name client deadline).goTo .owner).step e s.decision
              = (e, (DeleteCall.begin name client deadline).goTo
                (.disposing .deadlineExceeded true)) :=
            (if_neg (by rw [Bool.not_eq_true']; exact ne_false_of_eq_true there)).trans
              (if_pos decision)
          refine ⟨.deadlineExceeded, ?_, by rw [toldFirst?, owner, there]; rfl⟩
          rw [delete, first]
          dsimp only
          rw [second]
          rfl

/-! ### Any call that comes too late

Carried out or let go of in the queue, an expired call comes to the same for the endpoint.
-/

/-- The lock of an expired call is let go of, whoever looks at the clock first. -/
theorem expire_eq (e : Endpoint) {request : Request} (stream : List Arrival)
    (accepted : ∀ name, request.fileName? = some name → Mount.accepts name = true) :
    e.expire stream request = ⟨e.withoutLock request, .error .deadlineExceeded, [], stream⟩ := by
  cases request with
  | store header =>
      rw [expire, withoutLock]
      exact congrArg (Outcome.mk · _ _ _) (e.abandonExpired_eq (accepted _ rfl) _)
  | delete name client =>
      rw [expire, withoutLock]
      exact congrArg (Outcome.mk · _ _ _) (e.abandonExpired_eq (accepted _ rfl) _)
  | _ => rfl

/-- A call that is carried out after its deadline does nothing but let go of its lock. -/
theorem dispatch_late (e : Endpoint) {request : Request} (stream : List Arrival)
    (accepted : ∀ name, request.fileName? = some name → Mount.accepts name = true)
    (arrival : deadline.isExpired s.arrival.instant = true)
    (decision : deadline.isExpired s.decision.instant = true) :
    e.dispatch deadline s stream request
      = ⟨e.withoutLock request, (e.toldFirst? request).getD (.error .deadlineExceeded), [],
        stream⟩ := by
  cases request with
  | requestLock name client =>
      rw [dispatch, requestLock_late arrival]
      rfl
  | store header =>
      rw [dispatch, storeFrom_late (accepted _ rfl) arrival]
      rfl
  | fetch name mine =>
      obtain ⟨failure, fetched, told⟩ := e.fetch_late name mine decision
      rw [dispatch, fetched, told]
      rfl
  | delete name client =>
      obtain ⟨failure, deleted, told⟩ := e.delete_late client (accepted _ rfl) decision
      rw [dispatch, deleted, told]
      rfl
  | list =>
      have late : e.list deadline s.arrival.instant = .error .deadlineExceeded := if_pos arrival
      rw [dispatch, late]
      rfl
  | stat name =>
      rw [dispatch, stat_late arrival]
      rfl
  | checksum name client sum =>
      rw [dispatch, probe_late arrival]
      rfl
  | compareMtime name mtime =>
      rw [dispatch, compareMtime_late arrival]
      rfl
  | changeNotification maxWait =>
      have same := e.manifest_late arrival maxWait.toNat
      have made := e.manifest_eq s.arrival.instant maxWait.toNat deadline
      show Outcome.mk (e.manifest s.arrival.instant maxWait.toNat deadline).1
        ((e.manifest s.arrival.instant maxWait.toNat deadline).2.2.map Reply.manifest) [] stream = _
      rw [same, made]
      rfl

end Endpoint

namespace Server

/-- What a server tells the caller of an expired call instead of that, if anything. -/
def toldFirst? (s : Server) (request : Request) : Option (Except Failure Reply) :=
  if s.canStart request then s.endpoint.toldFirst? request else none

variable {s : Server} {request : Request} {deadline : Deadline} {times : Schedule}

theorem work_late (s : Server)
    (accepted : ∀ name, request.fileName? = some name → Mount.accepts name = true)
    (arrival : deadline.isExpired times.arrival.instant = true)
    (decision : deadline.isExpired times.decision.instant = true) (stream : List Arrival) :
    s.work deadline times stream request
      = ⟨s.endpoint.withoutLock request,
        (s.toldFirst? request).getD (.error .deadlineExceeded), [], stream⟩ := by
  rw [work, toldFirst?]
  cases starts : s.canStart request with
  | false =>
      rw [if_neg Bool.false_ne_true, if_neg Bool.false_ne_true]
      exact s.endpoint.expire_eq stream accepted
  | true =>
      rw [if_pos rfl, if_pos rfl]
      cases request with
      | changeNotification maxWait =>
          exact s.endpoint.dispatch_late stream nofun arrival decision
      | _ => exact s.endpoint.dispatch_late stream accepted arrival decision

/--
**A call that comes too late does nothing, but is not always told so.**  It sends no messages, and
leaves the mount, the feed and the owners of all files as they are, but that the caller of a store
or a delete does not own the file any more.  It is told that its deadline has passed exactly if it
is told nothing else first: a fetch and a delete that something is missing, and a call for the
manifest the manifest.
-/
theorem late_call_idle (s : Server)
    (accepted : ∀ name, request.fileName? = some name → Mount.accepts name = true)
    (late : deadline.isExpired times.arrival.instant = true)
    (forward : times.arrival.instant ≤ times.decision.instant) (stream : List Arrival) :
    let o := s.work deadline times stream request
    o.result = (s.toldFirst? request).getD (.error .deadlineExceeded) ∧
    ((∃ failure, o.result = .error failure ∧ failure.code = .deadlineExceeded) ↔
      s.toldFirst? request = none) ∧
    o.messages = [] ∧ o.endpoint.mount = s.endpoint.mount ∧ o.endpoint.feed = s.endpoint.feed ∧
    o.endpoint.locks.granted = s.endpoint.locks.granted ∧
    (∀ file owner, o.endpoint.locks.ownerOf file = some owner →
      s.endpoint.locks.ownerOf file = some owner) ∧
    (∀ name client, request.lockHolder? = some (name, client) →
      o.endpoint.locks.ownerOf name ≠ some client) := by
  -- What is too late on arrival is too late when the handler decides.
  have decision : deadline.isExpired times.decision.instant = true := by
    unfold Deadline.isExpired at late ⊢
    rw [decide_eq_true_eq] at late ⊢
    omega
  have worked := s.work_late accepted late decision stream
  dsimp only
  rw [worked]
  refine ⟨rfl, ?_, rfl, ?_⟩
  · cases told : s.toldFirst? request with
    | none => exact iff_of_true ⟨.deadlineExceeded, rfl, rfl⟩ rfl
    | some reply =>
        refine iff_of_false ?_ nofun
        rintro ⟨failure, is, code⟩
        unfold toldFirst? at told
        split at told
        · exact Endpoint.ne_late_of_toldFirst told failure is code
        · exact nomatch told
  · dsimp only
    rw [Endpoint.withoutLock]
    cases holder : request.lockHolder? with
    | none => exact ⟨rfl, rfl, rfl, fun _ _ owned => owned, nofun⟩
    | some subject =>
        obtain ⟨name, client⟩ := subject
        refine ⟨rfl, rfl, s.endpoint.granted_disposeLock name client _,
          fun file owner owned => Endpoint.ownerOf_of_disposeLock owned, ?_⟩
        rintro name' client' same
        cases same
        rw [Endpoint.ownerOf_disposeLock]
        split
        · exact nofun
        · assumption

/-- A server with one file, which alice has locked. -/
def holdingForAlice : Server where
  config := .forTesting ""
  endpoint := (Endpoint.create (.holding [("f", [1], 5)]) 8 8).withLocks
    (LockTable.empty.acquire "f" "alice").1
  busy := 0
  stats := .zero

/-- Alice's store comes too late and is told so; she does not own the file any more. -/
theorem store_of_alice_late :
    let deadline := Deadline.after 7 0
    let times := Schedule.atOnce ⟨7, 50⟩
    let request := Request.store ⟨"f", 1, "alice", checksum [2], 9⟩
    (∀ name, request.fileName? = some name → Mount.accepts name = true) ∧
    deadline.isExpired times.arrival.instant = true ∧
    times.arrival.instant ≤ times.decision.instant ∧
    holdingForAlice.endpoint.locks.ownerOf "f" = some "alice" ∧
    (holdingForAlice.work deadline times [] request).result = .error .deadlineExceeded ∧
    (holdingForAlice.work deadline times [] request).endpoint.locks.ownerOf "f" ≠ some "alice" := by
  intro deadline times request
  have accepted : ∀ name, request.fileName? = some name → Mount.accepts name = true := by
    rintro name ⟨⟩
    decide
  have late : deadline.isExpired times.arrival.instant = true := by decide
  have forward : times.arrival.instant ≤ times.decision.instant := Nat.le_refl _
  obtain ⟨told, -, -, -, -, -, -, free⟩ := holdingForAlice.late_call_idle accepted late forward []
  exact ⟨accepted, late, forward, by decide, told, free "f" "alice" rfl⟩

/-- Not every call that comes too late is told so: a fetch of a file that is not there is told that
there is none. -/
theorem late_call_may_not_be_told :
    ¬ ∀ (s : Server) (request : Request) (deadline : Deadline) (times : Schedule),
      (∀ name, request.fileName? = some name → Mount.accepts name = true) →
      deadline.isExpired times.arrival.instant = true →
      times.arrival.instant ≤ times.decision.instant →
      ∃ failure, (s.work deadline times [] request).result = .error failure ∧
        failure.code = .deadlineExceeded := by
  intro always
  obtain ⟨failure, result, code⟩ := always (.create (.forTesting "") (.holding []))
    (.fetch "f" none) (.after 7 0) (.atOnce ⟨7, 50⟩) (by rintro name ⟨⟩; decide) (by decide)
    (Nat.le_refl _)
  have told : (Server.work (.create (.forTesting "") (.holding [])) (.after 7 0)
      (.atOnce ⟨7, 50⟩) [] (.fetch "f" none)).result = .error (.notOnServer "f") := by
    rfl
  rw [told] at result
  cases result
  exact absurd code (by decide)

end Server

end MountSync
