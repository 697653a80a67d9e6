/-
A content has one checksum, however it comes.

Somebody who sums up a content as it comes has summed up what has come, after each piece.  A file is
read through a buffer, and a read may give less than there is room for; a store takes what its
stream brings, and there may be nothing in a piece.  In the end both have fed the whole content, so
they have its checksum.
-/
import MountSync.Proofs.Checksum
import MountSync.Proofs.Endpoint.Store

namespace MountSync

/-! ### Reading a file -/

/-- What a read gives of what is ahead in a file: no more than there is room for in the buffer, but
at least one byte until the file is at its end. -/
def nextRead (limit : Nat) (ahead : Bytes) : Bytes := ahead.take (max 1 (min limit readBufferSize))

theorem length_nextRead_le (limit : Nat) (ahead : Bytes) :
    (nextRead limit ahead).length ≤ ahead.length := List.length_take_le' ..

theorem nextRead_append (limit : Nat) (ahead : Bytes) :
    nextRead limit ahead ++ ahead.drop (nextRead limit ahead).length = ahead :=
  List.prefix_iff_eq_append.1 (List.take_prefix ..)

theorem nextRead_eq_nil_iff {limit : Nat} {ahead : Bytes} :
    nextRead limit ahead = [] ↔ ahead = [] := by
  have some : max 1 (min limit readBufferSize) ≠ 0 := by omega
  rw [nextRead, List.take_eq_nil_iff, or_iff_right some]

/-- Feeds what is ahead in a file, one read after another, until a read gives nothing.  `limits`
says how much each read may give. -/
def Crc.updateByReads (limits : Nat → Nat) (number : Nat) (c : Crc) (ahead : Bytes) : Crc :=
  if nextRead (limits number) ahead = [] then c
  else updateByReads limits (number + 1) (c.update (nextRead (limits number) ahead))
    (ahead.drop (nextRead (limits number) ahead).length)
  termination_by ahead.length
  decreasing_by
    rename_i some
    have positive := List.length_pos_iff.2 some
    have le := length_nextRead_le (limits number) ahead
    rw [List.length_drop]
    omega

/-- Whatever its reads give, a file is fed as a whole. -/
theorem Crc.updateByReads_eq (limits : Nat → Nat) (number : Nat) (c : Crc) (ahead : Bytes) :
    c.updateByReads limits number ahead = c.update ahead := by
  fun_induction Crc.updateByReads limits number c ahead with
  | case1 number c ahead none =>
      rw [nextRead_eq_nil_iff.1 none, update_nil]
  | case2 number c ahead some ih =>
      rw [ih, ← update_append, nextRead_append]

/-! ### Taking a stream

What was counted and summed up is kept beside the pieces, so the invariant is an equation between
the two.  It holds up to the piece that is one too many, and there the store gives up.
-/

/-- What was counted and summed up is all that has arrived. -/
structure Intake.Sums (i : Intake) (all : Bytes) : Prop where
  content : i.content = all
  received : i.received = all.length
  crc : i.crc = Crc.fresh.update all

namespace Intake

theorem sums_fresh (temporary : EntryName) (now : UnixTime) : (fresh temporary now).Sums [] :=
  ⟨rfl, rfl, rfl⟩

theorem Sums.accept {i : Intake} {all : Bytes} (h : i.Sums all) (piece : Bytes) (now : UnixTime) :
    (i.accept piece now).Sums (all ++ piece) := by
  obtain ⟨rfl, received, crc⟩ := h
  rw [← content_accept i piece now]
  exact ⟨rfl, received_accept received piece now, crc_accept crc piece now⟩

end Intake

/-- A piece that a stream brings, when it comes, and the endpoint as it is by then. -/
structure Incoming where
  endpoint : Endpoint
  moment : Moment
  piece : Bytes

namespace StoreCall

variable {c : StoreCall} {i : Intake} {all : Bytes}

/-- Takes one piece after another. -/
def takePieces (c : StoreCall) (stream : List Incoming) : StoreCall :=
  stream.foldl (fun c next => (c.take next.endpoint next.moment (.chunk next.piece)).2) c

/-- Who does not wait for a stream takes nothing of it. -/
theorem takePieces_of_past (past : c.isReceiving = false) (stream : List Incoming) :
    c.takePieces stream = c := by
  induction stream with
  | nil => rfl
  | cons next rest ih =>
      have untouched : (c.take next.endpoint next.moment (.chunk next.piece)).2 = c := by
        unfold isReceiving at past
        unfold take
        split at past
        · exact nomatch past
        · rfl
      show takePieces (c.take next.endpoint next.moment (.chunk next.piece)).2 rest = c
      rw [untouched]
      exact ih

/-- A piece is added to what has come, or it is one too many. -/
theorem take_piece (waits : c.phase = .receiving i) (e : Endpoint) (now : Moment) (piece : Bytes) :
    (c.take e now (.chunk piece)).2
      = if c.header.size.toNat < i.received + piece.length then
          (c.reject e i (.oversized c.header.size)).2
        else c.goTo (.receiving (i.accept piece now.calendar)) := by
  unfold take
  rw [waits]
  dsimp only
  split <;> rfl

/-- As long as no more bytes have come than were announced, a store has summed up what has come. -/
theorem takePieces_of_sums (waits : c.phase = .receiving i) (sums : i.Sums all)
    (enough : all.length ≤ c.header.size.toNat) (stream : List Incoming) :
    let content := all ++ (stream.map Incoming.piece).flatten
    (content.length ≤ c.header.size.toNat →
      ∃ j, (c.takePieces stream).phase = .receiving j ∧ j.Sums content) ∧
    (c.header.size.toNat < content.length → (c.takePieces stream).isReceiving = false) := by
  induction stream generalizing c i all with
  | nil =>
      show (_ → ∃ j, c.phase = .receiving j ∧ j.Sums (all ++ [])) ∧ (_ < (all ++ []).length → _)
      rw [List.append_nil]
      exact ⟨fun _ => ⟨i, waits, sums⟩, fun more => absurd enough (Nat.not_le.2 more)⟩
  | cons next rest ih =>
      have content : all ++ ((next :: rest).map Incoming.piece).flatten
          = (all ++ next.piece) ++ (rest.map Incoming.piece).flatten := by
        rw [List.map_cons, List.flatten_cons, List.append_assoc]
      dsimp only
      rw [content]
      have taken : c.takePieces (next :: rest)
          = (c.take next.endpoint next.moment (.chunk next.piece)).2.takePieces rest := rfl
      rw [taken, take_piece waits, sums.received, ← List.length_append]
      by_cases long : c.header.size.toNat < (all ++ next.piece).length
      · rw [if_pos long, takePieces_of_past rfl]
        refine ⟨fun fits => ?_, fun _ => rfl⟩
        rw [List.length_append] at fits
        omega
      · rw [if_neg long]
        let accepted := i.accept next.piece next.moment.calendar
        exact ih (c := c.goTo (.receiving accepted)) rfl (sums.accept next.piece _)
          (Nat.not_lt.1 long)

end StoreCall

/-- **A content has one checksum, however it comes.**

It is the same for the content in one piece, in any pieces, for a file that is read through a
buffer, whatever its reads give, and for a store, whatever its stream brings at a time.  A store
that was brought all that it announced has summed it up, and this is what it compares in the
end. -/
theorem checksums_agree (content : Bytes) :
    (∀ pieces : List Bytes, pieces.flatten = content →
      checksumOfPieces pieces = checksum content) ∧
    fileChecksum content = checksum content ∧
    (∀ limits : Nat → Nat,
      (Crc.fresh.updateByReads limits 0 content).finish = checksum content) ∧
    ∀ (c : StoreCall) (temporary : EntryName) (now : UnixTime) (stream : List Incoming),
      c.phase = .receiving (.fresh temporary now) →
      (stream.map Incoming.piece).flatten = content →
      (content.length ≤ c.header.size.toNat →
        ∃ i, (c.takePieces stream).phase = .receiving i ∧ i.content = content ∧
          i.crc.finish = checksum content ∧
          (i.mismatch c.header = none ↔
            content.length = c.header.size.toNat ∧ checksum content = c.header.checksum)) ∧
      (c.header.size.toNat < content.length → (c.takePieces stream).isReceiving = false) := by
  refine ⟨?_, fileChecksum_eq_checksum content, ?_, ?_⟩
  · rintro pieces rfl
    rw [checksumOfPieces, Crc.foldl_update, checksum]
  · intro limits
    rw [Crc.updateByReads_eq, checksum]
  · rintro c temporary now stream waits is
    have taken := StoreCall.takePieces_of_sums waits (Intake.sums_fresh temporary now)
      (Nat.zero_le _) stream
    dsimp only at taken
    rw [List.nil_append, is] at taken
    refine ⟨fun fits => ?_, taken.2⟩
    obtain ⟨i, phase, rfl, received, crc⟩ := taken.1 fits
    have sum : i.crc.finish = checksum i.content := by rw [crc, checksum]
    exact ⟨i, phase, rfl, sum, i.mismatch_eq_none_iff c.header received crc⟩

/-- A store of five bytes that waits for its content. -/
def awaitingFive : StoreCall :=
  ⟨⟨"f", 5, "alice", checksum [1, 2, 3, 4, 5], 9⟩, ⟨100⟩, .receiving (.fresh (.text "t") 9)⟩

/-- The bytes come one, none, and four at a time. -/
def inThreePieces : List Incoming :=
  [[1], [], [2, 3, 4, 5]].map fun piece => ⟨.create (.holding []) 8 8, ⟨0, 50⟩, piece⟩

theorem awaitingFive_agrees :
    [[1], [], [2, 3, 4, 5]].flatten = [1, 2, 3, 4, 5] ∧
    checksumOfPieces [[1], [], [2, 3, 4, 5]] = checksum [1, 2, 3, 4, 5] ∧
    awaitingFive.phase = .receiving (.fresh (.text "t") 9) ∧
    (inThreePieces.map Incoming.piece).flatten = [1, 2, 3, 4, 5] ∧
    ∃ i, (awaitingFive.takePieces inThreePieces).phase = .receiving i ∧
      i.crc.finish = checksum [1, 2, 3, 4, 5] ∧ i.mismatch awaitingFive.header = none := by
  obtain ⟨pieces, -, -, streamed⟩ := checksums_agree [1, 2, 3, 4, 5]
  obtain ⟨fits, -⟩ := streamed awaitingFive (.text "t") 9 inThreePieces rfl rfl
  obtain ⟨i, phase, -, sum, accepted⟩ := fits (by decide)
  exact ⟨rfl, pieces _ rfl, rfl, rfl, i, phase, sum, accepted.2 ⟨rfl, rfl⟩⟩

end MountSync
