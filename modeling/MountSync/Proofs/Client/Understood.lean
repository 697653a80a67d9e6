/-
Client and server understand each other.

A client takes a frame that has no place in its call, or messages that do not add up to what the
reply says, for a failure of its own.  It never meets either at a server.  The frames of an answer
go with the request, so those that come through of it do; and the reply to a fetch says how many
bytes its messages have, so a client that gets to the reply has got that many.

What is needed of the other side is that it *serves*: it answers as a server does, or not at all.
-/
import MountSync.Client.Basic
import MountSync.Proofs.Client.Passing
import MountSync.Proofs.Server.Kind
import MountSync.Proofs.Traffic.Failure

namespace MountSync

/-- The failures of a client that does not understand the other side. -/
def Failure.Misunderstands : Failure → Prop
  | .link (.unexpectedFrame _) | .incomplete _ _ => True
  | _ => False

theorem Failure.not_misunderstands_ofStatus (status : Status) :
    ¬ (Failure.ofStatus status).Misunderstands := by
  unfold ofStatus
  split <;> exact id

theorem Mount.not_misunderstands_of_statFile {m : Mount} {name : String} {failure : Failure}
    (h : m.statFile name = .error failure) : ¬ failure.Misunderstands := by
  rcases failure_of_statFile h with rfl | ⟨fault, rfl⟩
  · exact id
  · exact id

/-- Who answers a request as another one of its kind answers the request. -/
theorem Answers.alike {r r' : Request} {messages : List FetchChunk}
    {result : Except Failure Reply} (h : Answers r' messages result) (alike : r.Alike r') :
    Answers r messages result where
  fetch := by
    intro some
    obtain ⟨name, mine, rfl⟩ := h.fetch some
    have suits : (Reply.fetched 0).Suits r := alike (.fetched 0) trivial
    cases r with
    | fetch name mine => exact ⟨name, mine, rfl⟩
    | _ => exact suits.elim
  declined := h.declined
  suits := fun reply is => alike reply (h.suits reply is)
  whole := h.whole

/-! ### What comes of a call

What a client hears is a beginning of an answer, followed by an ending.  The ending is no frame, so
all that can be misunderstood is in the beginning.
-/

/-- What a client can hear of the answer to a request: what comes through of it, or of no answer. -/
inductive Hears (request : Request) : List Message → Prop
  | nothing (p : Passing) : Hears request (p.cut (answersOf []))
  | answer (p : Passing) {messages : List FetchChunk} {result : Except Failure Reply} :
      Answers request messages result → FetchChunk.Bounded messages →
        Hears request (p.cut (answersOf (messages.map .fetch ++ [ServerFrame.ofResult result])))

/-- A server that is sent a call with anything behind it, as much of it as comes through. -/
theorem Server.hears_serve (s : Server) (times : Schedule) (outgoing incoming : Passing)
    (timeout : UInt64) (request : Request) (more : List ClientFrame) :
    Hears request (incoming.cut (answersOf (s.serve times
      (outgoing.cut ((ClientFrame.call timeout request :: more).map .ofClientFrame))).2)) := by
  have unopened : ∀ messages, Opening.read messages = none →
      Hears request (incoming.cut (answersOf (s.serve times messages).2)) := by
    intro messages unread
    rw [serve, unread]
    exact .nothing incoming
  rcases outgoing.cut_cons (.ofClientFrame (.call timeout request)) (more.map .ofClientFrame) with
    ⟨e, ended⟩ | ⟨p, passed⟩
  · rw [List.map_cons, ended]
    cases e <;> exact unopened _ rfl
  · rw [List.map_cons, passed]
    cases read : ClientFrame.decode (ClientFrame.call timeout request).encode with
    | error fault =>
        refine unopened _ ?_
        rw [Message.ofClientFrame, Opening.read, read]
    | ok frame =>
        obtain ⟨request', rfl, alike⟩ := ClientFrame.decode_call read
        rw [Message.ofClientFrame, serve, Opening.read, read]
        dsimp only
        obtain ⟨messages, result, answered, answers, bounded⟩ :=
          (s.count fun n => { n with totalConnections := n.totalConnections + 1 }).serveCall_answers
            times ⟨timeout, request', p.cut (more.map .ofClientFrame)⟩
        rw [answered]
        exact .answer incoming (answers.alike alike) bounded

/-! ### A reply -/

/-- Not to get a frame is not to misunderstand one. -/
theorem Message.nextFrame_error {messages : List Message} {failure : Failure}
    (h : nextFrame messages = .error failure) : ¬ failure.Misunderstands := by
  induction messages with
  | nil =>
      cases h
      exact id
  | cons m rest ih =>
      cases m with
      | other => exact ih h
      | binary content =>
          rw [nextFrame] at h
          split at h
          · cases h
          · cases h
            exact id
      | close =>
          cases h
          exact id
      | broken reason =>
          cases h
          exact id

/-- What comes of a call that is no fetch is a reply of its kind, or a failure that is no
misunderstanding. -/
theorem Hears.replyIn {request : Request} {came : List Message} (h : Hears request came)
    (noFetch : ∀ name mine, request ≠ .fetch name mine) :
    (∀ reply, Message.replyIn came = .ok reply → reply.Suits request) ∧
      ∀ failure, Message.replyIn came = .error failure → ¬ failure.Misunderstands := by
  -- It is enough to know what is read as the first frame.
  have first : ∀ frame rest, Message.nextFrame came = .ok (frame, rest) →
      (∃ status, frame = .refusal status) ∨
        ∃ reply, frame = .reply reply ∧ reply.Suits request := by
    intro frame rest next
    cases h with
    | nothing p =>
        rcases p.cut_cons .close [] with ⟨e, ended⟩ | ⟨p', passed⟩
        · rw [show answersOf [] = [.close] from rfl, ended] at next
          cases e <;> cases next
        · rw [show answersOf [] = [.close] from rfl, passed] at next
          cases next
    | @answer p messages result answers bounded =>
        obtain rfl : messages = [] := by
          by_contra some
          obtain ⟨name, mine, is⟩ := answers.fetch some
          exact noFetch name mine is
        rcases p.cut_cons (.ofServerFrame (.ofResult result)) [.close] with
          ⟨e, ended⟩ | ⟨p', passed⟩
        · have ended' : p.cut (answersOf (([] : List FetchChunk).map .fetch
              ++ [ServerFrame.ofResult result])) = e.messages := ended
          rw [ended'] at next
          cases e <;> cases next
        · have passed' : p.cut (answersOf (([] : List FetchChunk).map .fetch
              ++ [ServerFrame.ofResult result]))
                = .ofServerFrame (.ofResult result) :: p'.cut [.close] := passed
          rw [passed', Message.ofServerFrame, Message.nextFrame] at next
          split at next
          · rename_i read
            cases next
            rcases ServerFrame.decode_ofResult read with ⟨status, rfl⟩ |
              ⟨reply, reply', rfl, rfl, alike⟩
            · exact Or.inl ⟨status, rfl⟩
            · exact Or.inr ⟨reply', rfl, alike request (answers.suits reply rfl)⟩
          · cases next
  cases next : Message.nextFrame came with
  | error failure =>
      rw [Message.replyIn, next]
      constructor
      · rintro reply ⟨⟩
      · rintro failure' ⟨⟩
        exact Message.nextFrame_error next
  | ok r =>
      rw [Message.replyIn, next]
      rcases first r.1 r.2 next with ⟨status, is⟩ | ⟨reply, is, suits⟩
      · obtain ⟨frame, rest⟩ := r
        subst is
        constructor
        · rintro reply ⟨⟩
        · rintro failure ⟨⟩
          exact Failure.not_misunderstands_ofStatus status
      · obtain ⟨frame, rest⟩ := r
        subst is
        constructor
        · rintro reply' ⟨⟩
          exact suits
        · rintro failure ⟨⟩

/-! ### A file

The messages that are still to come are measured against the result behind them.  With each message
that is taken, the same is left to be said of the rest.
-/

/-- How many bytes have arrived of a file. -/
def Download.count : Option Download → Nat
  | none => 0
  | some d => d.received

/-- Whether the messages that are still to come bring all that a result says there is. -/
def Completes (arrived : Option Download) (messages : List FetchChunk)
    (result : Except Failure Reply) : Prop :=
  ∀ reply, result = .ok reply → ∃ bytes, reply = .fetched bytes ∧
    (arrived.isSome ∨ messages ≠ []) ∧ (∀ m ∈ messages, m.copyNeeded = true) ∧
    Download.count arrived + (FetchChunk.contentOf messages).length = bytes.toNat

theorem Answers.completes {name : String} {mine : Option FileVersion}
    {messages : List FetchChunk} {result : Except Failure Reply}
    (h : Answers (.fetch name mine) messages result) : Completes none messages result := by
  intro reply is
  have suits := h.suits reply is
  cases reply with
  | fetched bytes =>
      have whole := h.whole bytes is
      refine ⟨bytes, rfl, Or.inr whole.some, whole.needed, ?_⟩
      rw [whole.length]
      exact Nat.zero_add _
  | _ => exact suits.elim

theorem Completes.take {m m' : Mount} {now : UnixTime} {arrived : Option Download}
    {d : Download} {chunk : FetchChunk} {rest : List FetchChunk} {result : Except Failure Reply}
    (h : Completes arrived (chunk :: rest) result)
    (taken : Download.take m now arrived chunk.content = .ok (m', d)) :
    Completes (some d) rest result := by
  have received : d.received = Download.count arrived + chunk.content.length := by
    unfold Download.take at taken
    split at taken
    · cases taken
      rfl
    · split at taken
      · exact nomatch taken
      · cases taken
        rfl
  intro reply is
  obtain ⟨bytes, rfl, -, needed, count⟩ := h reply is
  refine ⟨bytes, rfl, Or.inl rfl, fun m mem => needed m (.tail _ mem), ?_⟩
  rw [FetchChunk.contentOf, List.flatMap_cons, List.length_append] at count
  rw [Download.count, received, FetchChunk.contentOf]
  omega

theorem Mount.receive_ending (m : Mount) (now : UnixTime) (name : String)
    (arrived : Option Download) (e : Ending) {failure : Failure}
    (h : (m.receive now name arrived e.messages).2 = .error failure) :
    ¬ failure.Misunderstands := by
  cases e <;> cases h <;> exact id

/-- The reply to a fetch, when all messages before it have come. -/
theorem Mount.receive_result {m : Mount} {now : UnixTime} {name : String}
    {arrived : Option Download} {result : Except Failure Reply}
    (completes : Completes arrived [] result) (rest : List Message) {failure : Failure}
    (h : (m.receive now name arrived (.ofServerFrame (.ofResult result) :: rest)).2
      = .error failure) : ¬ failure.Misunderstands := by
  rw [Message.ofServerFrame, receive] at h
  cases read : ServerFrame.decode (ServerFrame.ofResult result).encode with
  | error fault =>
      rw [read] at h
      cases h
      exact id
  | ok frame =>
      rcases ServerFrame.decode_ofResult read with ⟨status, rfl⟩ | ⟨reply, reply', rfl, rfl, alike⟩
      · rw [read] at h
        cases h
        exact Failure.not_misunderstands_ofStatus status
      · obtain ⟨bytes, rfl, begun, -, count⟩ := completes reply rfl
        have fits : ServerFrame.decode (ServerFrame.reply (.fetched bytes)).encode
            = .ok (.reply (.fetched bytes)) :=
          ServerFrame.decode_encode_nil (f := .reply (.fetched bytes)) trivial
        rw [show ServerFrame.ofResult (.ok (.fetched bytes)) = .reply (.fetched bytes) from rfl,
          fits] at h
        dsimp only at h
        cases arrived with
        | none =>
            rcases begun with begun | begun
            · cases begun
            · exact absurd rfl begun
        | some d =>
            have all : d.received = bytes.toNat := count
            rw [Download.conclude, if_neg (not_not.2 all)] at h
            split at h
            · cases h
              exact id
            · cases h

/-- Whatever comes through of a fetch is understood. -/
theorem Mount.receive_understands (now : UnixTime) (name : String) {result : Except Failure Reply} :
    ∀ (messages : List FetchChunk) (m : Mount) (arrived : Option Download) (p : Passing),
      FetchChunk.Bounded messages → Completes arrived messages result → ∀ failure,
        (m.receive now name arrived (p.cut (answersOf
          (messages.map .fetch ++ [ServerFrame.ofResult result])))).2 = .error failure →
        ¬ failure.Misunderstands := by
  intro messages
  -- What has arrived grows by the message that is taken, so what is to come still completes it.
  induction messages with
  | nil =>
      intro m arrived p _ completes failure h
      rcases p.cut_cons (.ofServerFrame (.ofResult result)) [.close] with ⟨e, ended⟩ | ⟨p', passed⟩
      · have ended' : p.cut (answersOf (([] : List FetchChunk).map .fetch
            ++ [ServerFrame.ofResult result])) = e.messages := ended
        rw [ended'] at h
        exact m.receive_ending now name arrived e h
      · have passed' : p.cut (answersOf (([] : List FetchChunk).map .fetch
            ++ [ServerFrame.ofResult result]))
              = .ofServerFrame (.ofResult result) :: p'.cut [.close] := passed
        rw [passed'] at h
        exact receive_result completes _ h
  | cons chunk rest ih =>
      intro m arrived p bounded completes failure h
      obtain ⟨short, shorts⟩ := List.forall_mem_cons.1 bounded
      rcases p.cut_cons (.ofServerFrame (.fetch chunk))
        (answersOf (rest.map .fetch ++ [ServerFrame.ofResult result])) with
        ⟨e, ended⟩ | ⟨p', passed⟩
      · have ended' : p.cut (answersOf ((chunk :: rest).map .fetch
            ++ [ServerFrame.ofResult result])) = e.messages := ended
        rw [ended'] at h
        exact m.receive_ending now name arrived e h
      · have passed' : p.cut (answersOf ((chunk :: rest).map .fetch
            ++ [ServerFrame.ofResult result])) = .ofServerFrame (.fetch chunk)
              :: p'.cut (answersOf (rest.map .fetch ++ [ServerFrame.ofResult result])) := passed
        rw [passed', Message.ofServerFrame, receive, decode_fetch short] at h
        dsimp only at h
        by_cases needed : chunk.copyNeeded = true
        · rw [if_pos needed] at h
          split at h
          · cases h
            exact id
          · rename_i m' d taken
            exact ih m' (some d) p' shorts (completes.take taken) failure h
        · rw [if_neg needed] at h
          refine ih m arrived p' shorts ?_ failure h
          intro reply is
          obtain ⟨bytes, -, -, all, -⟩ := completes reply is
          exact absurd (all chunk (.head _)) needed

theorem Hears.receive {name : String} {mine : Option FileVersion} {came : List Message}
    (h : Hears (.fetch name mine) came) (m : Mount) (now : UnixTime) {failure : Failure}
    (failed : (m.receive now name none came).2 = .error failure) : ¬ failure.Misunderstands := by
  cases h with
  | nothing p =>
      rcases p.cut_cons .close [] with ⟨e, ended⟩ | ⟨p', passed⟩
      · rw [show answersOf [] = [.close] from rfl, ended] at failed
        exact m.receive_ending now name none e failed
      · rw [show answersOf [] = [.close] from rfl, passed] at failed
        cases failed
        exact id
  | answer p answers bounded =>
      exact Mount.receive_understands now name _ m none p bounded answers.completes failure failed

/-! ### The calls of a client -/

/-- Whether the other side answers as a server does, as long as it is in certain states, and stays
in these. -/
structure Peer.Serves {σ : Type} (p : Peer σ) (I : σ → Prop) : Prop where
  stays : ∀ w timeout frames, I w → I (p.exchange w timeout frames).1
  connects : ∀ w timeout frames fault, I w → (p.exchange w timeout frames).2 = .error fault →
    ∀ what, fault ≠ .unexpectedFrame what
  answers : ∀ w timeout limit request more came, I w →
    (p.exchange w timeout (.call limit request :: more)).2 = .ok came → Hears request came

/-- A call of a client on the server. -/
inductive ClientCall
  | requestLock (name : String)
  | store (name : String)
  | fetch (name : String)
  | delete (name : String)
  | list
  | stat (name : String)
  | checksum (name : String)
  | compareMtime (name : String)
  | changeNotification
  deriving DecidableEq, Repr, Inhabited

namespace Site

variable {σ : Type} {p : Peer σ} {I : σ → Prop} {x : Site σ}

/-- Makes a call, and tells whether it has failed. -/
def make (p : Peer σ) (x : Site σ) : ClientCall → Site σ × Except Failure Unit
  | .requestLock name => x.requestLock p name
  | .store name => x.store p name
  | .fetch name => (x.fetch p name).map id (Except.map fun _ => ())
  | .delete name => x.delete p name
  | .list => (x.list p).map id (Except.map fun _ => ())
  | .stat name => (x.stat p name).map id (Except.map fun _ => ())
  | .checksum name => (x.checksum p name).map id (Except.map fun _ => ())
  | .compareMtime name => (x.compareMtime p name).map id (Except.map fun _ => ())
  | .changeNotification => (x.changeNotification p).map id (Except.map fun _ => ())

/-- A call after which the other side still serves, and that does not fail by a
misunderstanding. -/
def Understands {α : Type} (I : σ → Prop) (r : Site σ × Except Failure α) : Prop :=
  I r.1.world ∧ ∀ failure, r.2 = .error failure → ¬ failure.Misunderstands

theorem Understands.map {α β : Type} {r : Site σ × Except Failure α} (h : Understands I r)
    (f : α → β) : Understands I (r.map id (Except.map f)) := by
  refine ⟨h.1, ?_⟩
  intro failure failed
  exact h.2 failure (Failure.of_map failed)

/-- A call is heard of, or there is no connection. -/
theorem call_serves (serves : p.Serves I) (inv : I x.world) (timeout : Nat) (request : Request)
    (more : List ClientFrame) :
    I (x.call p timeout request more).1.world ∧
      (∀ came, (x.call p timeout request more).2 = .ok came → Hears request came) ∧
      ∀ failure, (x.call p timeout request more).2 = .error failure →
        ¬ failure.Misunderstands := by
  have stays := serves.stays x.world timeout (.call (.ofNat timeout) request :: more) inv
  have connects := serves.connects x.world timeout (.call (.ofNat timeout) request :: more)
  have answers := serves.answers x.world timeout (.ofNat timeout) request more
  unfold call
  rcases exchanged : p.exchange x.world timeout (.call (.ofNat timeout) request :: more) with
    ⟨w, came⟩
  rw [exchanged] at stays connects answers
  cases came with
  | ok messages =>
      refine ⟨stays, ?_, nofun⟩
      intro came is
      cases is
      exact answers _ inv rfl
  | error fault =>
      refine ⟨stays, nofun, ?_⟩
      intro failure is
      cases is
      have other := connects fault inv rfl
      cases fault with
      | unexpectedFrame what => exact absurd rfl (other what)
      | _ => exact id

/-- A call that is no fetch. -/
theorem askFor_understands (serves : p.Serves I) (inv : I x.world) (timeout : Nat)
    {request : Request} (more : List ClientFrame) (what : String) {α : Type}
    {take : Reply → Option α} (noFetch : ∀ name mine, request ≠ .fetch name mine)
    (takes : ∀ reply, reply.Suits request → (take reply).isSome = true) :
    Understands I (x.askFor p timeout request more what take) := by
  obtain ⟨stays, hears, lost⟩ := call_serves serves inv timeout request more
  unfold askFor ask
  rcases called : x.call p timeout request more with ⟨y, came⟩
  rw [called] at stays hears lost
  cases came with
  | error failure =>
      refine ⟨stays, ?_⟩
      intro failure' is
      cases is
      exact lost failure rfl
  | ok messages =>
      obtain ⟨suits, understood⟩ := (hears messages rfl).replyIn noFetch
      dsimp only
      cases replied : Message.replyIn messages with
      | error failure =>
          refine ⟨stays, ?_⟩
          intro failure' is
          cases is
          exact understood failure replied
      | ok reply =>
          obtain ⟨a, taken⟩ := Option.isSome_iff_exists.1 (takes reply (suits reply replied))
          dsimp only
          rw [taken]
          exact ⟨stays, nofun⟩

theorem requestLock_understands (serves : p.Serves I) (inv : I x.world) (name : String) :
    Understands I (x.requestLock p name) := by
  refine askFor_understands serves inv _ _ _ nofun ?_
  intro reply suits
  cases reply with
  | empty => rfl
  | _ => exact suits.elim

theorem ownRecord_understands {name : String} {failure : Failure}
    (h : x.ownRecord name = .error failure) : ¬ failure.Misunderstands := by
  unfold ownRecord localRecord at h
  split at h
  · rename_i refused
    cases h
    exact Mount.not_misunderstands_of_statFile refused
  · cases h
    exact id
  · exact nomatch h

/-- A call that needs the client's own copy. -/
theorem withRecord_understands {α : Type} (inv : I x.world) {name : String}
    {go : FileRecord → Site σ × Except Failure α}
    (goes : ∀ record, Understands I (go record)) :
    Understands I (match x.ownRecord name with
      | .error failure => (x, .error failure)
      | .ok record => go record) := by
  split
  · rename_i failure missing
    refine ⟨inv, ?_⟩
    intro failure' is
    cases is
    exact ownRecord_understands missing
  · exact goes _

/-- A call that needs a lock. -/
theorem underLock_understands {α : Type} (serves : p.Serves I) (inv : I x.world) {name : String}
    {go : Site σ → Site σ × Except Failure α}
    (goes : ∀ y : Site σ, I y.world → Understands I (go y)) :
    Understands I (match x.requestLock p name with
      | (y, .error failure) => (y, .error failure)
      | (y, .ok ()) => go y) := by
  have asked := requestLock_understands serves inv name
  split
  · rename_i y failure refused
    rw [refused] at asked
    exact ⟨asked.1, fun failure' is => asked.2 failure' (by cases is; rfl)⟩
  · rename_i y granted
    rw [granted] at asked
    exact goes y asked.1

theorem store_understands (serves : p.Serves I) (inv : I x.world) (name : String) :
    Understands I (x.store p name) := by
  unfold store
  refine withRecord_understands inv fun record => ?_
  by_cases empty : record.size = 0
  · rw [if_pos empty]
    refine ⟨inv, ?_⟩
    intro failure is
    cases is
    exact id
  · rw [if_neg empty]
    refine underLock_understands serves inv fun y inv => ?_
    refine askFor_understands serves inv _ _ _ nofun ?_
    intro reply suits
    cases reply with
    | stored name => rfl
    | _ => exact suits.elim

theorem fetch_understands (serves : p.Serves I) (inv : I x.world) (name : String) :
    Understands I (x.fetch p name) := by
  unfold fetch
  split
  · rename_i failure refused
    refine ⟨inv, ?_⟩
    intro failure' is
    cases is
    exact Mount.not_misunderstands_of_statFile refused
  · rename_i found looked
    obtain ⟨stays, hears, lost⟩ := call_serves serves inv x.config.deadline
      (.fetch name (found.map FileRecord.version)) []
    split
    · rename_i y failure called
      rw [called] at stays lost
      refine ⟨stays, ?_⟩
      intro failure' is
      cases is
      exact lost failure rfl
    · rename_i y messages called
      rw [called] at stays hears
      refine ⟨stays, ?_⟩
      intro failure failed
      exact (hears messages rfl).receive y.mount (p.today y.world) failed

theorem delete_understands (serves : p.Serves I) (inv : I x.world) (name : String) :
    Understands I (x.delete p name) := by
  unfold delete
  refine underLock_understands serves inv fun y inv => ?_
  refine askFor_understands serves inv _ _ _ nofun ?_
  intro reply suits
  cases reply with
  | empty => rfl
  | _ => exact suits.elim

/-- Every call of a client is understood by one that serves. -/
theorem make_understands (serves : p.Serves I) (inv : I x.world) (c : ClientCall) :
    Understands I (x.make p c) := by
  cases c with
  | requestLock name => exact requestLock_understands serves inv name
  | store name => exact store_understands serves inv name
  | fetch name => exact (fetch_understands serves inv name).map _
  | delete name => exact delete_understands serves inv name
  | list =>
      have heard : Understands I (x.list p) := by
        refine askFor_understands serves inv _ _ _ nofun ?_
        intro reply suits
        cases reply with
        | list entries => rfl
        | _ => exact suits.elim
      exact heard.map _
  | stat name =>
      have heard : Understands I (x.stat p name) := by
        refine askFor_understands serves inv _ _ _ nofun ?_
        intro reply suits
        cases reply with
        | stat record => rfl
        | _ => exact suits.elim
      exact heard.map _
  | checksum name =>
      have heard : Understands I (x.checksum p name) := by
        refine withRecord_understands inv fun record => ?_
        refine askFor_understands serves inv _ _ _ nofun ?_
        intro reply suits
        cases reply with
        | checksum sum => rfl
        | _ => exact suits.elim
      exact heard.map _
  | compareMtime name =>
      have heard : Understands I (x.compareMtime p name) := by
        refine withRecord_understands inv fun record => ?_
        refine askFor_understands serves inv _ _ _ nofun ?_
        intro reply suits
        cases reply with
        | sameTimestamp same => rfl
        | _ => exact suits.elim
      exact heard.map _
  | changeNotification =>
      have heard : Understands I (x.changeNotification p) := by
        refine askFor_understands serves inv _ _ _ nofun ?_
        intro reply suits
        cases reply with
        | manifest records => rfl
        | _ => exact suits.elim
      exact heard.map _

end Site

end MountSync
