/-
How much of a conversation comes through.

A connection can break off at any message, in either direction; what has come before it is whole.
Whoever waits for more then sees that the other side is gone, or nothing at all until the deadline.
Both sides take what they receive for everything only at a last frame that says so, so what they
take for everything is everything, however the connection ends.
-/
import MountSync.Proofs.Client.Receive
import MountSync.Proofs.Server.Answer

namespace MountSync

/-- How a conversation breaks off for the one who waits for more. -/
inductive Ending
  | silence
  | closed
  | broken (reason : String)
  deriving DecidableEq, Repr, Inhabited

def Ending.messages : Ending → List Message
  | .silence => []
  | .closed => [.close]
  | .broken reason => [.broken reason]

/-- How much of what one side sends reaches the other one. -/
inductive Passing
  | whole
  /-- Only so many messages. -/
  | upTo (count : Nat) (ending : Ending)
  deriving DecidableEq, Repr, Inhabited

namespace Passing

/-- What arrives of the messages that are sent. -/
def cut : Passing → List Message → List Message
  | .whole, messages => messages
  | .upTo count ending, messages => messages.take count ++ ending.messages

/-- The first message is the end already, or it arrives and the others are cut. -/
theorem cut_cons (p : Passing) (message : Message) (rest : List Message) :
    (∃ e : Ending, p.cut (message :: rest) = e.messages) ∨
      ∃ p' : Passing, p.cut (message :: rest) = message :: p'.cut rest := by
  cases p with
  | whole => exact Or.inr ⟨.whole, rfl⟩
  | upTo count ending =>
      cases count with
      | zero => exact Or.inl ⟨ending, rfl⟩
      | succ count => exact Or.inr ⟨.upTo count ending, rfl⟩

end Passing

/-! ### The content of a store

A server takes a content for complete only at the frame that says so, and a stream that breaks off
has not got to this frame.
-/

/-- The frames that carry a content cut into pieces. -/
def framesOf (pieces : List Bytes) : List ClientFrame := pieces.map .chunk ++ [.endOfStream]

theorem arrival?_chunk {piece : Bytes} (fits : Frame.Fits piece.length) :
    Message.arrival? (.ofClientFrame (.chunk piece)) = some (.chunk piece) := by
  have read : ClientFrame.decode (ClientFrame.chunk piece).encode = .ok (.chunk piece) :=
    ClientFrame.decode_encode_nil (f := .chunk piece) fits
  rw [Message.ofClientFrame, Message.arrival?, read]

theorem arrival?_endOfStream :
    Message.arrival? (.ofClientFrame .endOfStream) = some .ended := by
  have read : ClientFrame.decode ClientFrame.endOfStream.encode = .ok .endOfStream :=
    ClientFrame.decode_encode_nil (f := .endOfStream) trivial
  rw [Message.ofClientFrame, Message.arrival?, read]

/-- A stream that breaks off brings no content. -/
theorem contentOf?_ending (e : Ending) : Arrival.contentOf? (Server.stream e.messages) = none := by
  cases e <;> rfl

theorem stream_cons {message : Message} {a : Arrival} (h : message.arrival? = some a)
    (rest : List Message) : Server.stream (message :: rest) = a :: Server.stream rest :=
  List.filterMap_cons_some h

/-- All pieces and the end are the content. -/
theorem contentOf?_framesOf {pieces : List Bytes}
    (fits : ∀ piece ∈ pieces, Frame.Fits piece.length) :
    Arrival.contentOf? (Server.stream ((framesOf pieces).map .ofClientFrame))
      = some pieces.flatten := by
  induction pieces with
  | nil =>
      show Arrival.contentOf? (Server.stream [.ofClientFrame .endOfStream]) = some []
      rw [stream_cons arrival?_endOfStream, Arrival.contentOf?]
  | cons piece rest ih =>
      obtain ⟨first, others⟩ := List.forall_mem_cons.1 fits
      show Arrival.contentOf? (Server.stream (.ofClientFrame (.chunk piece)
        :: (framesOf rest).map .ofClientFrame)) = _
      rw [stream_cons (arrival?_chunk first), Arrival.contentOf?, ih others, List.flatten_cons]
      rfl

/-- Whatever comes through of a content, it is taken for a content only if it is all of it. -/
theorem contentOf?_cut {pieces : List Bytes} (fits : ∀ piece ∈ pieces, Frame.Fits piece.length) :
    ∀ (p : Passing) {content : Bytes},
      Arrival.contentOf? (Server.stream (p.cut ((framesOf pieces).map .ofClientFrame)))
        = some content → content = pieces.flatten := by
  induction pieces with
  | nil =>
      intro p content brought
      rcases p.cut_cons (.ofClientFrame .endOfStream) [] with ⟨e, ended⟩ | ⟨p', passed⟩
      · have ended' : p.cut ((framesOf []).map .ofClientFrame) = e.messages := ended
        rw [ended', contentOf?_ending] at brought
        exact nomatch brought
      · have passed' : p.cut ((framesOf []).map .ofClientFrame)
            = .ofClientFrame .endOfStream :: p'.cut [] := passed
        rw [passed', stream_cons arrival?_endOfStream, Arrival.contentOf?] at brought
        exact (Option.some.inj brought).symm
  | cons piece rest ih =>
      intro p content brought
      obtain ⟨first, others⟩ := List.forall_mem_cons.1 fits
      rcases p.cut_cons (.ofClientFrame (.chunk piece)) ((framesOf rest).map .ofClientFrame) with
        ⟨e, ended⟩ | ⟨p', passed⟩
      · have ended' : p.cut ((framesOf (piece :: rest)).map .ofClientFrame) = e.messages := ended
        rw [ended', contentOf?_ending] at brought
        exact nomatch brought
      · have passed' : p.cut ((framesOf (piece :: rest)).map .ofClientFrame)
            = .ofClientFrame (.chunk piece) :: p'.cut ((framesOf rest).map .ofClientFrame) := passed
        rw [passed', stream_cons (arrival?_chunk first), Arrival.contentOf?] at brought
        obtain ⟨more, brought', rfl⟩ := Option.map_eq_some_iff.1 brought
        rw [ih others p' brought', List.flatten_cons]

/-! ### The answer -/

/-- The messages of the server's frames, after which it closes the connection. -/
def answersOf (frames : List ServerFrame) : List Message := frames.map .ofServerFrame ++ [.close]

/-- What a client takes for a reply is what was sent as one. -/
theorem decode_of_replyIn_cut (p : Passing) {answer : ServerFrame} {reply : Reply}
    (h : Message.replyIn (p.cut (answersOf [answer])) = .ok reply) :
    ServerFrame.decode answer.encode = .ok (.reply reply) := by
  rcases p.cut_cons (.ofServerFrame answer) [.close] with ⟨e, ended⟩ | ⟨p', passed⟩
  · have ended' : p.cut (answersOf [answer]) = e.messages := ended
    rw [ended'] at h
    cases e <;> exact nomatch h
  · have passed' : p.cut (answersOf [answer]) = .ofServerFrame answer :: p'.cut [.close] := passed
    rw [passed', Message.replyIn, Message.ofServerFrame, Message.nextFrame] at h
    cases read : ServerFrame.decode answer.encode with
    | error fault =>
        rw [read] at h
        exact nomatch h
    | ok frame =>
        rw [read] at h
        cases frame with
        | reply r =>
            cases h
            rfl
        | refusal status => exact nomatch h
        | fetch chunk => exact nomatch h

/-- A refusal is never taken for a reply. -/
theorem replyIn_cut_refusal (p : Passing) (status : Status) (reply : Reply) :
    Message.replyIn (p.cut (answersOf [.refusal status])) ≠ .ok reply := by
  intro h
  have read := decode_of_replyIn_cut p h
  rcases ServerFrame.decode_refusal status with ⟨fault, refused⟩ | ⟨s', refused⟩
  · exact nomatch refused.symm.trans read
  · exact nomatch refused.symm.trans read

theorem replyIn_answersOf {reply : Reply} (fits : reply.Fits) :
    Message.replyIn (answersOf [.reply reply]) = .ok reply := by
  have read : ServerFrame.decode (ServerFrame.reply reply).encode = .ok (.reply reply) :=
    ServerFrame.decode_encode_nil (f := .reply reply) fits
  show Message.replyIn [.ofServerFrame (.reply reply), .close] = _
  rw [Message.replyIn, Message.ofServerFrame, Message.nextFrame, read]

/-- A refusal that can be read is the failure that it tells of. -/
theorem replyIn_refusal {status : Status} (fits : Frame.TextFits status.message) :
    Message.replyIn (answersOf [.refusal status]) = .error (.ofStatus status) := by
  have read : ServerFrame.decode (ServerFrame.refusal status).encode = .ok (.refusal status) :=
    ServerFrame.decode_encode_nil (f := .refusal status) fits
  show Message.replyIn [.ofServerFrame (.refusal status), .close] = _
  rw [Message.replyIn, Message.ofServerFrame, Message.nextFrame, read]

/-! ### The content of a fetch

A client looks for the reply behind the pieces, and an answer that breaks off has none.
-/

theorem decode_fetch {chunk : FetchChunk} (bounded : chunk.content.length ≤ readLimit) :
    ServerFrame.decode (ServerFrame.fetch chunk).encode = .ok (.fetch chunk) :=
  ServerFrame.decode_encode_nil (f := .fetch chunk)
    (Nat.lt_of_le_of_lt bounded (by decide) : chunk.content.length < 2 ^ 64)

theorem fetched?_ending (e : Ending) : Message.fetched? e.messages = none := by
  cases e <;> rfl

theorem fetched?_cons {chunk : FetchChunk} (bounded : chunk.content.length ≤ readLimit)
    (rest : List Message) :
    Message.fetched? (.ofServerFrame (.fetch chunk) :: rest)
      = if chunk.copyNeeded then
          (Message.fetched? rest).map fun r => (chunk.content :: r.1, r.2)
        else Message.fetched? rest := by
  rw [Message.ofServerFrame, Message.fetched?, decode_fetch bounded]

/-- Whatever comes through of an answer, it is taken for a file only if it is all of it. -/
theorem fetched?_cut {messages : List FetchChunk} (bounded : FetchChunk.Bounded messages)
    (last : ServerFrame) :
    ∀ (p : Passing) {pieces : List Bytes} {bytes : UInt64},
      Message.fetched? (p.cut (answersOf (messages.map .fetch ++ [last]))) = some (pieces, bytes) →
        pieces = (messages.filter FetchChunk.copyNeeded).map FetchChunk.content ∧
          ServerFrame.decode last.encode = .ok (.reply (.fetched bytes)) := by
  -- A stream that is cut off ends where no reply can stand, so each message that was sent is either
  -- the place of the cut, or read and passed over.
  induction messages with
  | nil =>
      intro p pieces bytes brought
      rcases p.cut_cons (.ofServerFrame last) [.close] with ⟨e, ended⟩ | ⟨p', passed⟩
      · have ended' : p.cut (answersOf (([] : List FetchChunk).map .fetch ++ [last]))
            = e.messages := ended
        rw [ended', fetched?_ending] at brought
        cases brought
      · have passed' : p.cut (answersOf (([] : List FetchChunk).map .fetch ++ [last]))
            = .ofServerFrame last :: p'.cut [.close] := passed
        rw [passed', Message.ofServerFrame, Message.fetched?] at brought
        -- The only frame left is the last one, and nothing but a reply to a fetch ends well.
        have closing : Message.fetched? (p'.cut [.close]) = none := by
          rcases p'.cut_cons .close [] with ⟨e, ended⟩ | ⟨p'', passed⟩
          · rw [ended, fetched?_ending]
          · rw [passed, Message.fetched?]
        cases read : ServerFrame.decode last.encode with
        | error fault =>
            rw [read] at brought
            cases brought
        | ok frame =>
            rw [read] at brought
            cases frame with
            | refusal status => cases brought
            | fetch chunk =>
                simp only [closing, Option.map_none, ite_self] at brought
                cases brought
            | reply reply =>
                cases reply with
                | fetched total =>
                    cases brought
                    exact ⟨rfl, rfl⟩
                | _ => cases brought
  | cons chunk rest ih =>
      intro p pieces bytes brought
      obtain ⟨first, others⟩ := List.forall_mem_cons.1 bounded
      rcases p.cut_cons (.ofServerFrame (.fetch chunk)) (answersOf (rest.map .fetch ++ [last]))
        with ⟨e, ended⟩ | ⟨p', passed⟩
      · have ended' : p.cut (answersOf ((chunk :: rest).map .fetch ++ [last])) = e.messages := ended
        rw [ended', fetched?_ending] at brought
        cases brought
      · have passed' : p.cut (answersOf ((chunk :: rest).map .fetch ++ [last]))
            = .ofServerFrame (.fetch chunk) :: p'.cut (answersOf (rest.map .fetch ++ [last])) :=
          passed
        rw [passed', fetched?_cons first] at brought
        by_cases needed : chunk.copyNeeded = true
        · rw [if_pos needed] at brought
          obtain ⟨r, brought', same⟩ := Option.map_eq_some_iff.1 brought
          cases same
          obtain ⟨pieces, decoded⟩ := ih others p' brought'
          rw [List.filter_cons_of_pos needed, List.map_cons, ← pieces]
          exact ⟨rfl, decoded⟩
        · rw [if_neg needed] at brought
          rw [List.filter_cons_of_neg needed]
          exact ih others p' brought

/-- All messages and the reply are the file. -/
theorem fetched?_answersOf {messages : List FetchChunk} {content : Bytes}
    (bring : FetchChunk.Bring messages content) (bytes : UInt64) :
    Message.fetched? (answersOf (messages.map .fetch ++ [.reply (.fetched bytes)]))
      = some (messages.map FetchChunk.content, bytes) := by
  have whole : ∀ messages : List FetchChunk, (∀ m ∈ messages, m.copyNeeded = true) →
      FetchChunk.Bounded messages →
      Message.fetched? (answersOf (messages.map .fetch ++ [.reply (.fetched bytes)]))
        = some (messages.map FetchChunk.content, bytes) := by
    intro messages
    induction messages with
    | nil =>
        intro _ _
        have read : ServerFrame.decode (ServerFrame.reply (.fetched bytes)).encode
            = .ok (.reply (.fetched bytes)) :=
          ServerFrame.decode_encode_nil (f := .reply (.fetched bytes)) trivial
        show Message.fetched? [.ofServerFrame (.reply (.fetched bytes)), .close] = _
        rw [Message.ofServerFrame, Message.fetched?, read]
        rfl
    | cons chunk rest ih =>
        intro needed bounded
        obtain ⟨first, others⟩ := List.forall_mem_cons.1 needed
        obtain ⟨short, shorts⟩ := List.forall_mem_cons.1 bounded
        show Message.fetched? (.ofServerFrame (.fetch chunk)
          :: answersOf (rest.map .fetch ++ [.reply (.fetched bytes)])) = _
        rw [fetched?_cons short, if_pos first, ih others shorts]
        rfl
  exact whole messages bring.needed bring.bounded

/-- Whether a file can be put in place under a name. -/
def Mount.CanPlace (m : Mount) (name : String) : Prop :=
  m.enter = .ok () ∧ m.get? (.text name) ≠ some .directory

/-- A client that hears the whole answer to a fetch has the file, unless its own machine refuses to
put it in place. -/
theorem Mount.receive_of_bring (m : Mount) (name : String) (now : UnixTime)
    {messages : List FetchChunk} (some : messages ≠ []) {content : Bytes}
    (small : content.length < 2 ^ 64) (bring : FetchChunk.Bring messages content) :
    (m.CanPlace name → ∃ m', m.receive now name none
        (answersOf (messages.map .fetch ++ [.reply (.fetched (.ofNat content.length))]))
          = (m', .ok content.length) ∧
      m.Placed now name content m') ∧
    (¬ m.CanPlace name → ∃ m' fault, m.receive now name none
        (answersOf (messages.map .fetch ++ [.reply (.fetched (.ofNat content.length))]))
          = (m', .error (.io fault)) ∧ m.SameAs m') := by
  have holds : Download.Holds m m none [] := .nothing
  have receives := Mount.receives now name
    (answersOf (messages.map .fetch ++ [.reply (.fetched (.ofNat content.length))])) holds
  have pieces : (messages.map FetchChunk.content).flatten = content := by
    rw [← List.flatMap_def]
    exact bring.content
  have begun : (false || !(messages.map FetchChunk.content).isEmpty) = true := by
    cases messages with
    | nil => exact absurd rfl some
    | cons first rest => rfl
  have enough : ([] ++ (messages.map FetchChunk.content).flatten).length
      = (UInt64.ofNat content.length).toNat := by
    rw [List.nil_append, pieces, UInt64.toNat_ofNat']
    exact (Nat.mod_eq_of_lt small).symm
  rw [fetched?_answersOf bring, Option.isSome_none] at receives
  generalize m.receive now name none
    (answersOf (messages.map .fetch ++ [.reply (.fetched (.ofNat content.length))])) = r
    at receives ⊢
  obtain ⟨m', result⟩ := r
  cases receives with
  | placed complete placed =>
      rw [List.nil_append, pieces] at placed ⊢
      refine ⟨fun _ => ⟨m', rfl, placed⟩, fun refused => ?_⟩
      exact absurd ⟨complete.entered, complete.free⟩ refused
  | thrown incomplete same refused =>
      refine ⟨?_, fun _ => ?_⟩
      · rintro ⟨entered, free⟩
        exact absurd ⟨begun, entered, enough, free⟩ (incomplete _ rfl)
      · obtain ⟨fault, rfl⟩ := refused _ rfl begun enough
        exact ⟨m', fault, rfl, same⟩

/-- A client that hears that it needs no copy keeps its own. -/
theorem Mount.receive_of_refusal (m : Mount) (now : UnixTime) (name : String) (record : FileRecord)
    {status : Status} (fits : Frame.TextFits status.message) :
    m.receive now name none (answersOf [.fetch (.skip record), .refusal status])
      = (m, .error (.ofStatus status)) := by
  have skip : ServerFrame.decode (ServerFrame.fetch (.skip record)).encode
      = .ok (.fetch (.skip record)) := decode_fetch (Nat.zero_le _)
  have refusal : ServerFrame.decode (ServerFrame.refusal status).encode = .ok (.refusal status) :=
    ServerFrame.decode_encode_nil (f := .refusal status) fits
  show m.receive now name none
    [.ofServerFrame (.fetch (.skip record)), .ofServerFrame (.refusal status), .close] = _
  rw [Message.ofServerFrame, Mount.receive, skip]
  dsimp only [FetchChunk.skip]
  rw [if_neg Bool.false_ne_true, Message.ofServerFrame, Mount.receive, refusal]
  rfl

end MountSync
