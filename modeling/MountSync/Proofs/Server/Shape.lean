/-
What the answer to a call looks like.

Whatever a server is asked for, its answer ends with one frame that tells the result, and only a
fetch is answered by messages before that.  `Answers` says which messages and which result go with a
request; both sides of a call rely on nothing else.
-/
import MountSync.Proofs.Server.Answer
import MountSync.Proofs.Traffic.Sent

namespace MountSync

/-- Whether a reply is of the kind by which a request is answered that succeeds. -/
def Reply.Suits : Reply → Request → Prop
  | .empty, .requestLock _ _ | .empty, .delete _ _ => True
  | .stored _, .store _ => True
  | .fetched _, .fetch _ _ => True
  | .list _, .list => True
  | .stat _, .stat _ => True
  | .checksum _, .checksum _ _ _ => True
  | .sameTimestamp _, .compareMtime _ _ => True
  | .manifest _, .changeNotification _ => True
  | _, _ => False

/-- The messages and the result by which a request may be answered. -/
structure Answers (request : Request) (messages : List FetchChunk)
    (result : Except Failure Reply) : Prop where
  fetch : messages ≠ [] → ∃ name mine, request = .fetch name mine
  /-- That no copy is needed is all that is said, and the call fails. -/
  declined : ∀ m ∈ messages, m.copyNeeded = false →
    messages = [m] ∧ m.content = [] ∧ ∃ failure, result = .error failure
  suits : ∀ reply, result = .ok reply → reply.Suits request
  whole : ∀ bytes : UInt64, result = .ok (.fetched bytes) →
    FetchChunk.Whole bytes.toNat messages

/-- The frame that tells a result. -/
def ServerFrame.ofResult : Except Failure Reply → ServerFrame
  | .ok answer => .reply answer
  | .error failure => .refusal failure.status

namespace Answers

variable {request : Request}

/-- A call that sends no messages. -/
theorem plain {α : Type} {reply : α → Reply} (r : Except Failure α)
    (suits : ∀ a, (reply a).Suits request) (noFetch : ∀ a bytes, reply a ≠ .fetched bytes) :
    Answers request [] (r.map reply) where
  fetch := fun some => absurd rfl some
  declined := nofun
  suits := by
    intro answer is
    cases r with
    | error failure => exact nomatch is
    | ok a =>
        cases is
        exact suits a
  whole := by
    intro bytes is
    cases r with
    | error failure => exact nomatch is
    | ok a => exact absurd (Except.ok.inj is) (noFetch a bytes)

theorem error (request : Request) (failure : Failure) : Answers request [] (.error failure) where
  fetch := fun some => absurd rfl some
  declined := nofun
  suits := nofun
  whole := nofun

/-- A whole file is no longer than a number of its size can tell. -/
theorem toNat_of_whole {n : Nat} {messages : List FetchChunk} (h : FetchChunk.Whole n messages) :
    (UInt64.ofNat n).toNat = n := by
  obtain ⟨m, mem⟩ := List.exists_mem_of_ne_nil _ h.some
  rw [← h.announced m mem, UInt64.ofNat_toNat]

/-- A fetch, whatever is done to the endpoint meanwhile. -/
theorem ofSent {name : String} {mine : Option FileVersion} {d : Deadline} {c : FetchCall}
    {messages : List FetchChunk} (h : FetchCall.Sent (.begin name mine d) c messages) :
    Answers (.fetch name mine) messages
      ((c.result?.getD (.error .deadlineExceeded)).map fun n => .fetched (.ofNat n)) := by
  obtain ⟨declined, whole⟩ := h.tells rfl
  have result : ∀ reply,
      (c.result?.getD (.error .deadlineExceeded)).map (fun n => Reply.fetched (.ofNat n))
        = .ok reply →
      ∃ n, c.result? = some (.ok n) ∧ reply = .fetched (.ofNat n) := by
    intro reply is
    cases told : c.result? with
    | none =>
        rw [told] at is
        exact nomatch is
    | some result =>
        rw [told] at is
        cases result with
        | error failure => exact nomatch is
        | ok n =>
            cases is
            exact ⟨n, rfl, rfl⟩
  constructor
  · exact fun _ => ⟨name, mine, rfl⟩
  · intro m mem declines
    obtain ⟨only, empty, failure, failed⟩ := declined m mem declines
    refine ⟨only, empty, failure, ?_⟩
    rw [failed]
    rfl
  · intro reply is
    obtain ⟨n, -, rfl⟩ := result reply is
    trivial
  · intro bytes is
    obtain ⟨n, told, same⟩ := result _ is
    cases same
    have all := whole n told
    rw [toNat_of_whole all]
    exact all

end Answers

namespace Endpoint

/-- What is said of a call by its kind. -/
theorem dispatch_answers (e : Endpoint) (d : Deadline) (s : Schedule) (stream : List Arrival)
    (request : Request) :
    Answers request (e.dispatch d s stream request).messages
      (e.dispatch d s stream request).result := by
  cases request with
  | requestLock name client => exact .plain _ (fun _ => trivial) nofun
  | store header => exact .plain _ (fun _ => trivial) nofun
  | fetch name mine =>
      exact .ofSent (FetchCall.Sent.finish e s (fun _ => readLimit) (fun _ => .delivered)
        (.begin name mine d))
  | delete name client => exact .plain _ (fun _ => trivial) nofun
  | list => exact .plain _ (fun _ => trivial) nofun
  | stat name => exact .plain _ (fun _ => trivial) nofun
  | checksum name client sum => exact .plain _ (fun _ => trivial) nofun
  | compareMtime name mtime => exact .plain _ (fun _ => trivial) nofun
  | changeNotification maxWait => exact .plain _ (fun _ => trivial) nofun

/-- The pieces of a fetch are never larger than a frame can hold. -/
theorem dispatch_bounded (e : Endpoint) (d : Deadline) (s : Schedule) (stream : List Arrival)
    (request : Request) : FetchChunk.Bounded (e.dispatch d s stream request).messages := by
  cases request with
  | fetch name mine =>
      obtain ⟨e', result, messages, fetched, -, -, fetches⟩ := e.fetches name mine d s
      show FetchChunk.Bounded
        (e.fetch name mine d s (fun _ => readLimit) (fun _ => .delivered)).2.2
      rw [fetched]
      cases fetches with
      | sent _ _ _ _ _ _ bring => exact bring.bounded
      | refused bounded => exact bounded
  | _ => exact nofun

end Endpoint

namespace Server

theorem frames_eq (o : Outcome) :
    frames o = o.messages.map .fetch ++ [ServerFrame.ofResult o.result] := by
  rw [frames]
  cases o.result <;> rfl

/-- How long a call waits does not change what it is answered by. -/
theorem suits_limitWait (s : Server) (request : Request) (reply : Reply) :
    reply.Suits (s.limitWait request) ↔ reply.Suits request := by
  cases request with
  | changeNotification maxWait => cases reply <;> exact Iff.rfl
  | _ => exact Iff.rfl

/-- A call is answered in the same way whether it is carried out or let go of. -/
theorem work_answers (s : Server) (d : Deadline) (times : Schedule) (stream : List Arrival)
    (request : Request) :
    Answers request (s.work d times stream request).messages
        (s.work d times stream request).result ∧
      FetchChunk.Bounded (s.work d times stream request).messages := by
  unfold work
  split
  · have answers := s.endpoint.dispatch_answers d times stream (s.limitWait request)
    refine ⟨⟨fun some => ?_, answers.declined, fun reply is => ?_, answers.whole⟩,
      s.endpoint.dispatch_bounded d times stream _⟩
    · obtain ⟨name, mine, is⟩ := answers.fetch some
      cases request with
      | changeNotification maxWait => exact nomatch is
      | _ => exact ⟨name, mine, is⟩
    · exact (s.suits_limitWait request reply).1 (answers.suits reply is)
  · exact ⟨.error request .deadlineExceeded, nofun⟩

/-- **The answer to a call is one frame that tells its result, and before it the messages of a
fetch.** -/
theorem serveCall_answers (s : Server) (times : Schedule) (o : Opening) :
    ∃ messages result,
      (s.serveCall times o).2 = messages.map .fetch ++ [ServerFrame.ofResult result] ∧
      Answers o.request messages result ∧ FetchChunk.Bounded messages := by
  obtain ⟨answers, bounded⟩ := s.work_answers (.after times.arrival.instant o.timeout.toNat) times
    (o.rest.filterMap Message.arrival?) o.request
  exact ⟨_, _, frames_eq _, answers, bounded⟩

end Server

end MountSync
