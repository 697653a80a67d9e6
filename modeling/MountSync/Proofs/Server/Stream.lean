/-
What a server makes of the messages behind a store.

Two loops read them: the store takes one part after another until it is over, and then the rest is
read and thrown away, up to the end of the stream.  Where the one hands over to the other makes no
difference to what is read in all.  Either way it goes up to the first message behind which there can
be nothing more, and not any further, and every piece up to there is counted.

Whether the store is accepted is a matter of the messages as well.  Those that mean nothing are passed
over; of the others there have to be pieces, and then the end, and the pieces together have to be what
was announced.  How they are cut is not asked.
-/
import MountSync.Proofs.Endpoint.Cutting
import MountSync.Proofs.Endpoint.Whole
import MountSync.Proofs.Server.Shape

namespace MountSync

/-! ### Streams that are read to their end

What the store takes and what is thrown away behind it are two parts of one stream, so what is
counted in all does not depend on where the one ends.
-/

namespace Arrival

variable {stream rest : List Arrival}

/-- Up to the end of a stream everything is counted. -/
theorem drain_append {taken : List Arrival} (unended : ∀ a ∈ taken, a.isLast = false)
    (rest : List Arrival) :
    drain (taken ++ rest) = (payload taken + (drain rest).1, (drain rest).2) := by
  induction taken with
  | nil =>
      rw [List.nil_append, payload, Nat.zero_add]
  | cons a taken ih =>
      obtain ⟨first, others⟩ := List.forall_mem_cons.1 unended
      rw [List.cons_append, drain, first, if_neg Bool.false_ne_true, ih others, payload,
        Nat.add_assoc]

/-- What was taken of a stream either is from before its end, or is all up to there. -/
theorem Leaves.taken (h : Leaves stream rest) :
    ∃ taken, stream = taken ++ rest ∧ ((∀ a ∈ taken, a.isLast = false) ∨
      taken.any isLast = true ∧ drain stream = (payload taken, rest)) := by
  induction h with
  | nothing stream => exact ⟨[], rfl, Or.inl nofun⟩
  | @last a rest last =>
      have size : a.size = 0 := by cases a <;> first | rfl | exact nomatch last
      refine ⟨[a], rfl, Or.inr ⟨?_, ?_⟩⟩
      · rw [List.any_cons, last, Bool.true_or]
      · rw [drain, if_pos last, payload, payload, size]
  | @part a stream rest more _ ih =>
      obtain ⟨taken, rfl, before | ⟨ended, drained⟩⟩ := ih
      · exact ⟨a :: taken, rfl, Or.inl (List.forall_mem_cons.2 ⟨more, before⟩)⟩
      · refine ⟨a :: taken, rfl, Or.inr ⟨?_, ?_⟩⟩
        · rw [List.any_cons, ended, Bool.or_true]
        · rw [drain, more, if_neg Bool.false_ne_true, drained, payload]

theorem payload_map_chunk (pieces : List Bytes) :
    payload (pieces.map .chunk) = pieces.flatten.length := by
  induction pieces with
  | nil => rfl
  | cons piece pieces ih =>
      rw [List.map_cons, payload, ih, List.flatten_cons, List.length_append]
      rfl

/-- A stream that brings a content has as many bytes up to its end. -/
theorem drain_of_content {content : Bytes} (brought : contentOf? stream = some content) :
    (drain stream).1 = content.length := by
  obtain ⟨pieces, rest, rfl, rfl⟩ := contentOf?_eq_some_iff.1 brought
  have unended : ∀ a ∈ pieces.map chunk, a.isLast = false := by
    intro a mem
    obtain ⟨piece, -, rfl⟩ := List.mem_map.1 mem
    rfl
  rw [drain_append unended, payload_map_chunk]
  rfl

end Arrival

namespace Server

/-- What is left unread of a stream, once a call is over that has left some of it. -/
def unread (stream rest : List Arrival) : List Arrival :=
  if (stream.take (stream.length - rest.length)).any Arrival.isLast then rest
  else (Arrival.drain rest).2

/-- Wherever a store stops, its stream is read to the end. -/
theorem reads_to_end {stream rest : List Arrival} (leaves : Arrival.Leaves stream rest)
    (h : StoreHeader) :
    (bytesRead (.store h) stream rest, unread stream rest) = Arrival.drain stream := by
  obtain ⟨taken, rfl, how⟩ := leaves.taken
  have took : (taken ++ rest).take ((taken ++ rest).length - rest.length) = taken := by
    rw [List.length_append, Nat.add_sub_cancel, List.take_left]
  rw [bytesRead, unread, took]
  rcases how with before | ⟨ended, drained⟩
  · have unended : ¬ taken.any Arrival.isLast = true := by simpa using before
    rw [if_neg unended, if_neg unended, Arrival.drain_append before]
  · rw [if_pos ended, if_pos ended, drained]

end Server

/-! ### Messages -/

namespace Message

/-- The piece of content that a message brings. -/
def piece? : Message → Option Bytes
  | .binary content =>
    match ClientFrame.decode content with
    | .ok (.chunk piece) => some piece
    | _ => none
  | _ => none

/-- Whether a message says that the content is complete. -/
def isEnd : Message → Bool
  | .binary content =>
    match ClientFrame.decode content with
    | .ok .endOfStream => true
    | _ => false
  | _ => false

/-- Whether nothing of a stream can come behind a message. -/
def isLast : Message → Bool
  | .close | .broken _ => true
  | m => m.isEnd

/-- Messages that bring a content: pieces of it, with messages in between that mean nothing, and then
the end. -/
def Bring (messages : List Message) (content : Bytes) : Prop :=
  ∃ (before : List Message) (last : Message) (behind : List Message),
    messages = before ++ last :: behind ∧ last.isEnd = true ∧
      (∀ m ∈ before, m = .other ∨ m.piece?.isSome = true) ∧
        (before.filterMap piece?).flatten = content

variable {m : Message} {messages before behind : List Message}

/-! What a message means to a store is what it is. -/

theorem arrival?_eq_none_iff : m.arrival? = none ↔ m = .other := by
  unfold arrival?
  split
  · split <;> exact ⟨nofun, nofun⟩
  · exact iff_of_true rfl rfl
  · exact ⟨nofun, nofun⟩
  · exact ⟨nofun, nofun⟩

theorem piece?_eq_some_iff {piece : Bytes} :
    m.piece? = some piece ↔ m.arrival? = some (.chunk piece) := by
  unfold piece? arrival?
  cases m with
  | binary content =>
      dsimp only
      cases ClientFrame.decode content with
      | error fault => exact ⟨nofun, nofun⟩
      | ok frame => cases frame <;> simp
  | _ => exact ⟨nofun, nofun⟩

theorem isEnd_iff : m.isEnd = true ↔ m.arrival? = some .ended := by
  unfold isEnd arrival?
  cases m with
  | binary content =>
      dsimp only
      cases ClientFrame.decode content with
      | error fault => exact ⟨nofun, nofun⟩
      | ok frame => cases frame <;> simp
  | _ => exact ⟨nofun, nofun⟩

theorem isLast_iff : m.isLast = true ↔ ∃ a, m.arrival? = some a ∧ a.isLast = true := by
  cases m with
  | binary content =>
      show (Message.binary content).isEnd = true ↔ _
      rw [isEnd_iff]
      constructor
      · exact fun ended => ⟨.ended, ended, rfl⟩
      · rintro ⟨a, meant, last⟩
        cases a with
        | ended => exact meant
        | broken failure =>
            unfold arrival? at meant
            dsimp only at meant
            split at meant <;> cases meant
        | _ => exact nomatch last
  | other => exact ⟨nofun, fun ⟨a, meant, _⟩ => nomatch meant⟩
  | close => exact iff_of_true rfl ⟨_, rfl, rfl⟩
  | broken reason => exact iff_of_true rfl ⟨_, rfl, rfl⟩

theorem contentOf?_of_bring {content : Bytes} (brings : Bring messages content) :
    Arrival.contentOf? (Server.stream messages) = some content := by
  obtain ⟨before, last, behind, rfl, ended, passed, rfl⟩ := brings
  induction before with
  | nil =>
      rw [List.nil_append, Server.stream, List.filterMap_cons_some (isEnd_iff.1 ended)]
      rfl
  | cons m before ih =>
      obtain ⟨first, others⟩ := List.forall_mem_cons.1 passed
      rcases first with rfl | brings
      · exact ih others
      · obtain ⟨piece, brought⟩ := Option.isSome_iff_exists.1 brings
        rw [List.cons_append, Server.stream,
          List.filterMap_cons_some (piece?_eq_some_iff.1 brought), Arrival.contentOf?,
          List.filterMap_cons_some brought, List.flatten_cons]
        exact congrArg (Option.map (piece ++ ·)) (ih others)

/-- A message that means nothing changes nothing. -/
theorem Bring.other {content : Bytes} (h : Bring messages content) :
    Bring (.other :: messages) content := by
  obtain ⟨before, last, behind, rfl, ended, passed, content⟩ := h
  exact ⟨.other :: before, last, behind, rfl, ended,
    List.forall_mem_cons.2 ⟨Or.inl rfl, passed⟩, content⟩

/-- A piece comes before what the messages behind it bring. -/
theorem Bring.piece {piece content : Bytes} (h : Bring messages content)
    (first : m.piece? = some piece) : Bring (m :: messages) (piece ++ content) := by
  obtain ⟨before, last, behind, rfl, ended, passed, rfl⟩ := h
  have some : m.piece?.isSome = true := by rw [first]; rfl
  refine ⟨m :: before, last, behind, rfl, ended, List.forall_mem_cons.2 ⟨Or.inr some, passed⟩, ?_⟩
  rw [List.filterMap_cons_some first, List.flatten_cons]

theorem bring_of_contentOf? {content : Bytes}
    (brought : Arrival.contentOf? (Server.stream messages) = some content) :
    Bring messages content := by
  induction messages generalizing content with
  | nil => cases brought
  | cons m rest ih =>
      cases meant : m.arrival? with
      | none =>
          obtain rfl := arrival?_eq_none_iff.1 meant
          exact (ih brought).other
      | some a =>
          rw [Server.stream, List.filterMap_cons_some meant] at brought
          cases a with
          | chunk piece =>
              obtain ⟨more, brings, rfl⟩ := Option.map_eq_some_iff.1 brought
              exact (ih brings).piece (piece?_eq_some_iff.2 meant)
          | ended =>
              cases brought
              exact ⟨[], m, rest, rfl, isEnd_iff.2 meant, List.forall_mem_nil _, rfl⟩
          | refused failure => cases brought
          | broken failure => cases brought
          | late => cases brought

/-- Messages bring a content exactly if their stream does. -/
theorem bring_iff {content : Bytes} :
    Bring messages content ↔ Arrival.contentOf? (Server.stream messages) = some content :=
  ⟨contentOf?_of_bring, bring_of_contentOf?⟩

/-- The bytes of a stream are those of the pieces that the messages bring. -/
theorem payload_stream (messages : List Message) :
    Arrival.payload (Server.stream messages) = (messages.filterMap piece?).flatten.length := by
  induction messages with
  | nil => rfl
  | cons m rest ih =>
      cases meant : m.arrival? with
      | none =>
          obtain rfl := arrival?_eq_none_iff.1 meant
          exact ih
      | some a =>
          rw [Server.stream, List.filterMap_cons_some meant, Arrival.payload]
          cases piece : m.piece? with
          | some p =>
              obtain rfl : Arrival.chunk p = a :=
                Option.some.inj ((piece?_eq_some_iff.1 piece).symm.trans meant)
              rw [List.filterMap_cons_some piece, List.flatten_cons, List.length_append, ← ih]
              rfl
          | none =>
              have size : a.size = 0 := by
                cases a with
                | chunk p => exact nomatch piece.symm.trans (piece?_eq_some_iff.2 meant)
                | _ => rfl
              rw [List.filterMap_cons_none piece, ← ih, size, Nat.zero_add]
              rfl

/-- A stream is read up to the first message behind which there is nothing more. -/
theorem drain_stream {last : Message} (unended : ∀ m ∈ before, m.isLast = false)
    (ended : last.isLast = true) :
    Arrival.drain (Server.stream (before ++ last :: behind))
      = ((before.filterMap piece?).flatten.length, Server.stream behind) := by
  obtain ⟨a, meant, isLast⟩ := isLast_iff.1 ended
  have unended' : ∀ b ∈ Server.stream before, b.isLast = false := by
    intro b mem
    obtain ⟨m, mem, is⟩ := List.mem_filterMap.1 mem
    rw [← Bool.not_eq_true]
    intro last
    exact nomatch (unended m mem).symm.trans (isLast_iff.2 ⟨b, is, last⟩)
  have split : Server.stream (before ++ last :: behind)
      = Server.stream before ++ a :: Server.stream behind := by
    rw [Server.stream, List.filterMap_append, List.filterMap_cons_some meant]
    rfl
  rw [split, Arrival.drain_append unended', Arrival.drain, if_pos isLast, payload_stream]
  rfl

end Message

/-! ### A store and the messages behind it

The endpoint decides by the stream, and the stream is what the messages mean.  So what was shown of
streams is said here of messages.
-/

namespace Server

variable {s : Server} {times : Schedule} {timeout : UInt64} {h : StoreHeader}
  {rest : List Message}

/-- A store that is carried out, and what is left of its stream. -/
theorem work_store (starts : s.canStart (.store h) = true) :
    s.work (deadline times timeout) times (stream rest) (.store h)
      = ⟨(s.endpoint.store h (deadline times timeout) times (stream rest)).1,
          (s.endpoint.store h (deadline times timeout) times (stream rest)).2.map .stored, [],
          (s.endpoint.storeFrom h (deadline times timeout) times (stream rest)).2.2⟩ := by
  rw [work_of_canStart s times timeout rest starts]
  rfl

/-- Whether or not a store is begun, nothing behind the end of its stream is taken. -/
theorem leaves_work (s : Server) (times : Schedule) (timeout : UInt64) (h : StoreHeader)
    (rest : List Message) :
    Arrival.Leaves (stream rest)
      (s.work (deadline times timeout) times (stream rest) (.store h)).rest := by
  cases starts : s.canStart (.store h) with
  | true =>
      rw [work_store starts]
      exact s.endpoint.leaves_storeFrom h _ times (stream rest)
  | false =>
      rw [work_of_not_canStart s times timeout rest starts]
      exact .nothing _

/-- The counter of the bytes that come in goes up by what the stream has up to its end. -/
theorem bytesIn_serveCall (s : Server) (times : Schedule) (timeout : UInt64) (h : StoreHeader)
    (rest : List Message) :
    (s.serveCall times ⟨timeout, .store h, rest⟩).1.stats.bytesIn
      = s.stats.bytesIn + (Arrival.drain (stream rest)).1 := by
  have read := congrArg Prod.fst (reads_to_end (s.leaves_work times timeout h rest) h)
  exact congrArg (s.stats.bytesIn + ·) read

/-- Messages that bring the same content are answered alike, and leave the same behind. -/
theorem serveCall_of_bring (s : Server) (times : Schedule) (timeout : UInt64) (h : StoreHeader)
    {messages messages' : List Message} {content : Bytes} (brings : Message.Bring messages content)
    (brings' : Message.Bring messages' content) :
    s.serveCall times ⟨timeout, .store h, messages'⟩
      = s.serveCall times ⟨timeout, .store h, messages⟩ := by
  have brought := Message.bring_iff.1 brings
  have brought' := Message.bring_iff.1 brings'
  have read : ∀ rest : List Message, bytesRead (.store h) (stream rest)
      (s.work (deadline times timeout) times (stream rest) (.store h)).rest
        = (Arrival.drain (stream rest)).1 :=
    fun rest => congrArg Prod.fst (reads_to_end (s.leaves_work times timeout h rest) h)
  have outcome :
      let o := s.work (deadline times timeout) times (stream messages) (.store h)
      let o' := s.work (deadline times timeout) times (stream messages') (.store h)
      o'.endpoint = o.endpoint ∧ o'.result = o.result ∧ o'.messages = o.messages := by
    cases starts : s.canStart (.store h) with
    | true =>
        obtain ⟨endpoint, result⟩ :=
          s.endpoint.storeFrom_of_content h (deadline times timeout) times brought brought'
        rw [work_store starts, work_store starts]
        exact ⟨endpoint, congrArg (Except.map Reply.stored) result, rfl⟩
    | false =>
        rw [work_of_not_canStart s times timeout messages starts,
          work_of_not_canStart s times timeout messages' starts]
        exact ⟨rfl, rfl, rfl⟩
  obtain ⟨endpoint, result, sent⟩ := outcome
  have bytes := (read messages').trans
    ((Arrival.drain_of_content brought').trans
      ((Arrival.drain_of_content brought).symm.trans (read messages).symm))
  -- What a server keeps and answers is made of these alone.
  unfold stream deadline at endpoint result sent bytes
  unfold serveCall
  dsimp only
  rw [frames_eq, frames_eq, endpoint, result, sent, bytes]

/-- The messages behind a store are read up to the first one behind which nothing more can come. -/
theorem reads_up_to (s : Server) (times : Schedule) (timeout : UInt64) (h : StoreHeader)
    {before : List Message} {last : Message} (behind : List Message)
    (unended : ∀ m ∈ before, m.isLast = false) (ended : last.isLast = true) :
    let rest := before ++ last :: behind
    unread (stream rest) (s.work (deadline times timeout) times (stream rest) (.store h)).rest
        = stream behind ∧
      (s.serveCall times ⟨timeout, .store h, rest⟩).1.stats.bytesIn
        = s.stats.bytesIn + (before.filterMap Message.piece?).flatten.length := by
  intro rest
  have drained : Arrival.drain (stream rest)
      = ((before.filterMap Message.piece?).flatten.length, stream behind) :=
    Message.drain_stream unended ended
  have read := reads_to_end (s.leaves_work times timeout h rest) h
  rw [s.bytesIn_serveCall, drained]
  rw [drained] at read
  exact ⟨congrArg Prod.snd read, rfl⟩

/-- A store that is carried out is answered by what comes of it on the endpoint. -/
theorem serveCall_store_cases (starts : s.canStart (.store h) = true) (rest : List Message) :
    let r := s.serveCall times ⟨timeout, .store h, rest⟩
    (StoreCall.Succeeds s.endpoint h (deadline times timeout) times (stream rest) ∧
      r.2 = [.reply (.stored h.name)] ∧
      ∃ (content : Bytes) (f : File), Message.Bring rest content ∧
        r.1.endpoint.mount.get? (.text h.name) = some (.file f) ∧ f.read = .ok content) ∨
    (¬ StoreCall.Succeeds s.endpoint h (deadline times timeout) times (stream rest) ∧
      ∃ status, r.2 = [.refusal status]) := by
  intro r
  have left : r.1.endpoint
      = (s.endpoint.store h (deadline times timeout) times (stream rest)).1 :=
    congrArg Outcome.endpoint (work_store starts)
  have answer : r.2 = [.ofResult
      ((s.endpoint.store h (deadline times timeout) times (stream rest)).2.map .stored)] :=
    (congrArg frames (work_store starts)).trans (frames_eq _)
  rcases s.endpoint.store_cases h (deadline times timeout) times (stream rest) with
    ⟨succeeds, stored, content, brought, placed⟩ | ⟨fails, ⟨failure, refused⟩, -⟩
  · obtain ⟨f, puts, is, -, kept⟩ := placed.entry
    rw [stored] at answer
    rw [left]
    exact Or.inl ⟨succeeds, answer, content, f, Message.bring_iff.2 brought, puts.entry,
      by rw [File.read, kept, is]⟩
  · rw [refused] at answer
    exact Or.inr ⟨fails, failure.status, answer⟩

/-- If nothing else stands in the way of a store, the messages decide. -/
theorem succeeds_iff_bring {e : Endpoint} (rest : List Message) (intime : InTime times timeout)
    (owner : e.locks.ownerOf h.name = some h.client)
    (proceeds : ∃ found, e.mount.statFile h.name = .ok found ∧
      resolve .store (found.map FileRecord.version) h.version = .proceed)
    (free : e.mount.get? (.text h.name) ≠ some .directory) :
    StoreCall.Succeeds e h (deadline times timeout) times (stream rest) ↔
      (∃ made, e.mount.createPartial times.transfer.calendar = .ok made) ∧
        ∃ content, Message.Bring rest content ∧
          content.length = h.size.toNat ∧ checksum content = h.checksum := by
  constructor
  · intro succeeds
    obtain ⟨-, content, brought, fulfilled⟩ := Endpoint.succeeds_iff.1 succeeds
    exact ⟨succeeds.temporary, content, Message.bring_iff.2 brought, fulfilled.length,
      fulfilled.checksum⟩
  · rintro ⟨⟨⟨m, temporary⟩, made⟩, content, brings, length, sum⟩
    have entered := Mount.enter_of_createPartial made
    obtain ⟨found, stat, proceed⟩ := proceeds
    have takes : StoreCall.Takes e h (deadline times timeout) times :=
      ⟨(Mount.Admits.of_statFile stat entered).accepted, intime.arrival, owner,
        ⟨found, stat, proceed⟩, intime.decision, entered⟩
    exact Endpoint.succeeds_iff.2 ⟨takes, content, Message.bring_iff.1 brings, length, sum, free⟩

/-- **A store is accepted exactly if the messages behind it are in the language of its stream.**

Let nothing else stand in its way: its turn comes, in time, its client owns the file, its copy is to
replace the one that is there, and the name is not that of a directory.  Then, if a temporary file can
be made at all, the store is accepted exactly if the messages bring a content that is as announced,
and the file has that content.  It does not matter how the content is cut.

In any case the messages are read up to the first one behind which nothing more can come, and no
further, and the bytes of all pieces up to there are counted. -/
theorem serveCall_store_iff (rest : List Message) (starts : s.canStart (.store h) = true)
    (intime : InTime times timeout) (owner : s.endpoint.locks.ownerOf h.name = some h.client)
    (proceeds : ∃ found, s.endpoint.mount.statFile h.name = .ok found ∧
      resolve .store (found.map FileRecord.version) h.version = .proceed)
    (free : s.endpoint.mount.get? (.text h.name) ≠ some .directory) :
    let r := s.serveCall times ⟨timeout, .store h, rest⟩
    (r.2 = [.reply (.stored h.name)] ↔
      (∃ made, s.endpoint.mount.createPartial times.transfer.calendar = .ok made) ∧
        ∃ content, Message.Bring rest content ∧
          content.length = h.size.toNat ∧ checksum content = h.checksum) ∧
    (r.2 ≠ [.reply (.stored h.name)] → ∃ status, r.2 = [.refusal status]) ∧
    (r.2 = [.reply (.stored h.name)] → ∃ (content : Bytes) (f : File),
      Message.Bring rest content ∧
        r.1.endpoint.mount.get? (.text h.name) = some (.file f) ∧ f.read = .ok content) ∧
    (∀ (rest' : List Message) (content : Bytes), Message.Bring rest content →
      Message.Bring rest' content → s.serveCall times ⟨timeout, .store h, rest'⟩ = r) ∧
    ∀ (before : List Message) (last : Message) (behind : List Message),
      rest = before ++ last :: behind → (∀ m ∈ before, m.isLast = false) → last.isLast = true →
        unread (stream rest) (s.work (deadline times timeout) times (stream rest) (.store h)).rest
            = stream behind ∧
          r.1.stats.bytesIn
            = s.stats.bytesIn + (before.filterMap Message.piece?).flatten.length := by
  intro r
  have language := succeeds_iff_bring rest intime owner proceeds free
  refine and_assoc.1 (and_assoc.1 ⟨?_, ?_, ?_⟩)
  · rcases serveCall_store_cases starts rest with
      ⟨succeeds, accepted, stored⟩ | ⟨fails, status, rejected⟩
    · exact ⟨⟨iff_of_true accepted (language.1 succeeds), fun refused => absurd accepted refused⟩,
        fun _ => stored⟩
    · have unlike : r.2 ≠ [.reply (.stored h.name)] := by
        rw [show r.2 = _ from rejected]
        exact nofun
      exact ⟨⟨iff_of_false unlike (mt language.2 fails), fun _ => ⟨status, rejected⟩⟩,
        fun accepted => absurd accepted unlike⟩
  · exact fun _ _ brings brings' => s.serveCall_of_bring times timeout h brings brings'
  · rintro before last behind rfl unended ended
    exact s.reads_up_to times timeout h behind unended ended

/-- A server at rest, on which alice has locked a file. -/
def servingAlice (mount : Mount) : Server :=
  let s := create (.forTesting "") mount
  s.withEndpoint (s.endpoint.withLocks (s.endpoint.locks.acquire "f" "alice").1)

/-- Alice's store is accepted in two pieces, one of them empty, with a text in between, and the
message behind the end is not read. -/
theorem serve_alice_in_pieces :
    let s := servingAlice ((Mount.empty .bare [.text "m"]).put (.text "f")
      (.file ⟨[1], .atSecond 5, 7, none⟩))
    let times := Schedule.atOnce ⟨0, 50⟩
    let h : StoreHeader := ⟨"f", 2, "alice", checksum [2, 3], 9⟩
    let before := [.ofClientFrame (.chunk [2, 3]), .other, .ofClientFrame (.chunk [])]
    let ended := Message.ofClientFrame .endOfStream
    let behind := [Message.ofClientFrame (.chunk [4])]
    let r := s.serveCall times ⟨100, .store h, before ++ ended :: behind⟩
    s.canStart (.store h) = true ∧ InTime times 100 ∧
      s.endpoint.locks.ownerOf "f" = some "alice" ∧
      (∃ found, s.endpoint.mount.statFile "f" = .ok found ∧
        resolve .store (found.map FileRecord.version) h.version = .proceed) ∧
      s.endpoint.mount.get? (.text "f") ≠ some .directory ∧
      r.2 = [.reply (.stored "f")] ∧ r.1.stats.bytesIn = 2 := by
  intro s times h before ended behind r
  have found : s.endpoint.mount.locate "f"
      = .ok (s.endpoint.mount.placeOf (.text "f"), .file ⟨[1], .atSecond 5, 7, none⟩) := by
    decide +kernel
  have starts : s.canStart (.store h) = true := rfl
  have intime : InTime times 100 := ⟨by decide, by decide, by decide⟩
  have owner : s.endpoint.locks.ownerOf "f" = some "alice" := by decide
  have proceeds : ∃ found, s.endpoint.mount.statFile "f" = .ok found ∧
      resolve .store (found.map FileRecord.version) h.version = .proceed :=
    ⟨_, Mount.statFile_of_file (by decide) found rfl, by decide +kernel⟩
  have free : s.endpoint.mount.get? (.text "f") ≠ some .directory := by decide
  obtain ⟨accepted, -, -, -, counted⟩ :=
    serveCall_store_iff (before ++ ended :: behind) starts intime owner proceeds free
  have brings : Message.Bring (before ++ ended :: behind) [2, 3] :=
    ⟨before, ended, behind, rfl, by decide, by decide, by decide⟩
  refine ⟨starts, intime, owner, proceeds, free, ?_, ?_⟩
  · exact accepted.2 ⟨⟨_, rfl⟩, [2, 3], brings, rfl, rfl⟩
  · exact (counted before ended behind rfl (by decide) (by decide)).2

/-- The messages alone do not decide: if the directory of the mount is gone, a store is refused
whatever they bring. -/
theorem messages_may_not_decide :
    ¬ ∀ (s : Server) (times : Schedule) (timeout : UInt64) (h : StoreHeader) (rest : List Message),
      s.canStart (.store h) = true → InTime times timeout →
      s.endpoint.locks.ownerOf h.name = some h.client →
      (∃ found, s.endpoint.mount.statFile h.name = .ok found ∧
        resolve .store (found.map FileRecord.version) h.version = .proceed) →
      s.endpoint.mount.get? (.text h.name) ≠ some .directory →
      (∃ m ∈ rest, m.isLast = true) →
      ((s.serveCall times ⟨timeout, .store h, rest⟩).2 = [.reply (.stored h.name)] ↔
        ∃ content, Message.Bring rest content ∧
          content.length = h.size.toNat ∧ checksum content = h.checksum) := by
  intro always
  let s := servingAlice ⟨.bare, [.text "m"]⟩
  let h : StoreHeader := ⟨"f", 1, "alice", checksum [2], 9⟩
  let chunk := Message.ofClientFrame (.chunk [2])
  let ended := Message.ofClientFrame .endOfStream
  have decides := always s (.atOnce ⟨0, 50⟩) 100 h [chunk, ended] rfl
    ⟨by decide, by decide, by decide⟩ (by decide) ⟨none, by decide +kernel, rfl⟩ (by decide)
    (by decide)
  have brings : Message.Bring [chunk, ended] [2] :=
    ⟨[chunk], ended, [], rfl, by decide, by decide, by decide⟩
  exact absurd (decides.2 ⟨[2], brings, rfl, rfl⟩) (by decide +kernel)

end Server

end MountSync
