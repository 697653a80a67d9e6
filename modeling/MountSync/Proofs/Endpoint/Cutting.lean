/-
A content may come in any pieces.

Each piece is added to what has arrived, and what a store does in the end it does with the whole: the
number of bytes, their checksum, and the bytes themselves.  Only the list of the pieces is different
when a content is cut in another way, and nothing asks for that.  It may be noticed at another piece
that there are too many bytes, but it is noticed, and the answer is the same.

So there is one outcome for a content, that of the content in one piece, and every stream that brings
the content comes to it.
-/
import MountSync.Proofs.Endpoint.Alone
import MountSync.Proofs.Endpoint.Store

namespace MountSync

/-- The same has arrived, though it may have been in other pieces. -/
structure Intake.Alike (i j : Intake) : Prop where
  temporary : j.temporary = i.temporary
  content : j.content = i.content
  received : j.received = i.received
  crc : j.crc = i.crc
  written : j.written = i.written

namespace Intake

variable {i j : Intake}

/-- One piece after another is the same as both in one. -/
theorem alike_accept_append (i : Intake) (p q : Bytes) (now : UnixTime) :
    (i.accept (p ++ q) now).Alike ((i.accept p now).accept q now) where
  temporary := rfl
  content := by simp only [content_accept, List.append_assoc]
  received := by simp only [accept, List.length_append, Nat.add_assoc]
  crc := by simp only [accept, Crc.update_append]
  written := by
    simp only [accept, List.append_eq_nil_iff]
    by_cases first : p = [] <;> by_cases second : q = [] <;> simp [first, second]

theorem alike_accept_nil (i : Intake) (now : UnixTime) : i.Alike (i.accept [] now) where
  temporary := rfl
  content := by rw [content_accept, List.append_nil]
  received := rfl
  crc := rfl
  written := rfl

theorem Alike.mismatch (alike : i.Alike j) (h : StoreHeader) : j.mismatch h = i.mismatch h := by
  rw [Intake.mismatch, Intake.mismatch, alike.received, alike.crc]

end Intake

/-! ### The end of a stream

After the last part a store is past its stream, and takes what steps are left to it.
-/

/-- Whether a store takes nothing of its stream any more. -/
def StorePhase.isPast : StorePhase → Bool
  | .complete _ | .installed _ | .givingUp _ | .disposing _ _ | .finished _ => true
  | .arrived | .expired | .owner | .opening | .receiving _ => false

namespace StoreCall

variable {e : Endpoint} {now : Moment} {c : StoreCall} {i j : Intake}

theorem isPast_step (past : c.phase.isPast = true) : (c.step e now).2.phase.isPast = true := by
  unfold step
  cases phase : c.phase with
  | complete intake =>
      show (c.installContent e intake).2.phase.isPast = true
      unfold installContent
      split <;> rfl
  | installed received =>
      show (c.conclude e received).2.phase.isPast = true
      unfold conclude
      dsimp only
      split <;> rfl
  | givingUp failure => rfl
  | disposing failure present => rfl
  | finished result => exact past
  | _ =>
      rw [phase] at past
      exact nomatch past

theorem left_of_isPast (past : c.phase.isPast = true) : c.phase.left ≤ 3 := by
  cases phase : c.phase with
  | complete intake => exact Nat.le_refl _
  | givingUp failure => exact Nat.le_succ _
  | installed received => exact Nat.le_add_left 1 2
  | disposing failure present => exact Nat.le_add_left 1 2
  | finished result => exact Nat.zero_le _
  | _ =>
      rw [phase] at past
      exact nomatch past

/-- A store that is done with its stream comes to its end. -/
theorem finished_settle (past : c.phase.isPast = true) :
    ∃ result, (c.settle e now).2.phase = .finished result := by
  have still : (c.settle e now).2.phase.isPast = true :=
    isPast_step (isPast_step (isPast_step past))
  have left : (c.settle e now).2.phase.left = 0 := left_settle (left_of_isPast past)
  cases phase : (c.settle e now).2.phase with
  | finished result => exact ⟨result, rfl⟩
  | receiving intake =>
      rw [phase] at still
      exact nomatch still
  | _ =>
      rw [phase] at left
      exact nomatch left

/-- A store is done with its stream when that has come to its end. -/
theorem isPast_take {a : Arrival} (waits : c.isReceiving = true) (last : a.isLast = true) :
    (c.take e now a).2.phase.isPast = true := by
  unfold isReceiving at waits
  split at waits
  · rename_i intake phase
    unfold take
    rw [phase]
    cases a with
    | ended =>
        dsimp only
        split <;> rfl
    | broken failure => rfl
    | _ => exact nomatch last
  · exact nomatch waits

/-- What is behind the part that a store ends with is left. -/
theorem drink_of_past {a : Arrival} (waits : c.isReceiving = true) (rest : List Arrival)
    (past : (c.take e now a).2.phase.isPast = true) :
    c.drink e now (a :: rest)
      = ((c.takeAndSettle e now a).1, (c.takeAndSettle e now a).2, rest) := by
  obtain ⟨result, finished⟩ :
      ∃ result, (c.takeAndSettle e now a).2.phase = .finished result := finished_settle past
  rw [drink, if_pos waits]
  exact drink_eq_of_finished _ now finished rest

/-! ### Other pieces

The induction is on the stream, with what has arrived by then on one side and the same content as
one piece on the other.
-/

theorem reject_congr (alike : i.Alike j) (failure : Failure) :
    c.reject e j failure = c.reject e i failure := by
  rw [reject, reject, alike.temporary]

theorem installContent_congr (alike : i.Alike j) : c.installContent e j = c.installContent e i := by
  unfold installContent
  rw [alike.temporary, alike.content, alike.written, alike.received]
  split
  · exact reject_congr alike _
  · rfl

theorem take_ended_of_mismatch {failure : Failure} (found : i.mismatch c.header = some failure) :
    (c.goTo (.receiving i)).take e now .ended = c.reject e i failure := by
  rw [take]
  dsimp only [goTo]
  rw [found]
  rfl

theorem take_ended_of_match (fits : i.mismatch c.header = none) :
    (c.goTo (.receiving i)).take e now .ended = (e, c.goTo (.complete i)) := by
  rw [take]
  dsimp only [goTo]
  rw [fits]

/-- What is done at the end of a stream does not depend on the pieces. -/
theorem ended_congr (alike : i.Alike j) :
    (c.goTo (.receiving j)).takeAndSettle e now .ended
      = (c.goTo (.receiving i)).takeAndSettle e now .ended := by
  have same := alike.mismatch c.header
  rw [takeAndSettle, takeAndSettle]
  cases first : i.mismatch c.header with
  | some failure =>
      rw [take_ended_of_mismatch first, take_ended_of_mismatch (same.trans first),
        reject_congr alike]
  | none =>
      have last : (c.goTo (.complete j)).step e now = (c.goTo (.complete i)).step e now :=
        installContent_congr (c := c.goTo (.complete i)) alike
      rw [take_ended_of_match first, take_ended_of_match (same.trans first)]
      dsimp only
      rw [settle, settle, last]

/-- What a store comes to that waits for its stream, if the rest of its content comes in one piece. -/
def swallow (e : Endpoint) (now : Moment) (c : StoreCall) (i : Intake) (content : Bytes) :
    Endpoint × StoreCall :=
  if c.header.size.toNat < i.received + content.length then
    let (e, c) := c.reject e i (.oversized c.header.size)
    c.settle e now
  else (c.goTo (.receiving (i.accept content now.calendar))).takeAndSettle e now .ended

/-- A piece that fits can as well come together with what is behind it. -/
theorem swallow_accept {piece more : Bytes} :
    c.swallow e now (i.accept piece now.calendar) more = c.swallow e now i (piece ++ more) := by
  have count : (i.accept piece now.calendar).received + more.length
      = i.received + (piece ++ more).length := by
    rw [List.length_append, ← Nat.add_assoc]
    rfl
  rw [swallow, swallow, count, ended_congr (i.alike_accept_append piece more now.calendar)]
  rfl

/-- However its content is cut, a store comes to what it would come to if it came in one piece. -/
theorem drink_of_content {stream : List Arrival} {content : Bytes} {i : Intake}
    (fits : i.received ≤ c.header.size.toNat)
    (brought : Arrival.contentOf? stream = some content) :
    ∃ rest, (c.goTo (.receiving i)).drink e now stream
      = ((c.swallow e now i content).1, (c.swallow e now i content).2, rest) := by
  induction stream generalizing i content with
  | nil => cases brought
  | cons a rest ih =>
      have waits : (c.goTo (.receiving i)).isReceiving = true := rfl
      cases a with
      | chunk piece =>
          obtain ⟨more, brings, rfl⟩ := Option.map_eq_some_iff.1 brought
          by_cases long : c.header.size.toNat < i.received + piece.length
          · have first : (c.goTo (.receiving i)).take e now (.chunk piece)
                = c.reject e i (.oversized c.header.size) := if_pos long
            have longer : c.header.size.toNat < i.received + (piece ++ more).length := by
              rw [List.length_append]
              omega
            rw [drink_of_past waits rest (by rw [first]; rfl), swallow, if_pos longer,
              takeAndSettle, first]
            exact ⟨rest, rfl⟩
          · have first : (c.goTo (.receiving i)).take e now (.chunk piece)
                = (e, c.goTo (.receiving (i.accept piece now.calendar))) := if_neg long
            rw [drink, if_pos waits, takeAndSettle, first, ← swallow_accept]
            exact ih (Nat.not_lt.1 long) brings
      | ended =>
          cases brought
          have enough : ¬ c.header.size.toNat < i.received + ([] : Bytes).length :=
            Nat.not_lt.2 fits
          rw [drink_of_past waits rest (isPast_take waits rfl), swallow, if_neg enough,
            ended_congr (i.alike_accept_nil now.calendar)]
          exact ⟨rest, rfl⟩
      | refused failure => cases brought
      | broken failure => cases brought
      | late => cases brought

end StoreCall

/-! ### How much of a stream is taken -/

/-- What can be left of a stream by somebody who takes one part after another and nothing behind the
end. -/
inductive Arrival.Leaves : List Arrival → List Arrival → Prop
  | nothing (stream : List Arrival) : Leaves stream stream
  | last {a : Arrival} (rest : List Arrival) : a.isLast = true → Leaves (a :: rest) rest
  | part {a : Arrival} {stream rest : List Arrival} : a.isLast = false → Leaves stream rest →
      Leaves (a :: stream) rest

namespace StoreCall

variable {e : Endpoint} {now : Moment} {c : StoreCall}

theorem leaves_drink (stream : List Arrival) :
    Arrival.Leaves stream (c.drink e now stream).2.2 := by
  induction stream generalizing e c with
  | nil => exact .nothing []
  | cons a rest ih =>
      cases waits : c.isReceiving with
      | false =>
          rw [drink, if_neg (by rw [waits]; exact Bool.false_ne_true)]
          exact .nothing _
      | true =>
          cases last : a.isLast with
          | true =>
              rw [drink_of_past waits rest (isPast_take waits last)]
              exact .last rest last
          | false =>
              rw [drink, if_pos waits]
              exact .part last ih

end StoreCall

namespace Endpoint

variable (e : Endpoint) (h : StoreHeader) (d : Deadline) (s : Schedule)

/-- A store takes nothing that is behind the end of its stream. -/
theorem leaves_storeFrom (stream : List Arrival) :
    Arrival.Leaves stream (e.storeFrom h d s stream).2.2 :=
  StoreCall.leaves_drink stream

/-- Streams that bring the same content are the same to a store. -/
theorem storeFrom_of_content {stream stream' : List Arrival} {content : Bytes}
    (brought : Arrival.contentOf? stream = some content)
    (brought' : Arrival.contentOf? stream' = some content) :
    (e.storeFrom h d s stream').1 = (e.storeFrom h d s stream).1 ∧
      (e.storeFrom h d s stream').2.1 = (e.storeFrom h d s stream).2.1 := by
  by_cases takes : StoreCall.Takes e h d s
  · obtain ⟨e₁, c, entered, temporary, receiving⟩ := StoreCall.enter_of_takes takes
    have waits : c = c.goTo (.receiving (.fresh temporary s.transfer.calendar)) := by
      rw [StoreCall.goTo, ← receiving.phase]
    rw [waits] at entered
    let fresh := Intake.fresh temporary s.transfer.calendar
    have drinks : ∀ {stream}, Arrival.contentOf? stream = some content →
        ∃ rest, (c.goTo (.receiving fresh)).drink e₁ s.transfer stream
          = ((c.swallow e₁ s.transfer fresh content).1, (c.swallow e₁ s.transfer fresh content).2,
            rest) := StoreCall.drink_of_content (Nat.zero_le _)
    obtain ⟨rest, drunk⟩ := drinks brought
    obtain ⟨rest', drunk'⟩ := drinks brought'
    rw [e.storeFrom_eq h d s stream entered drunk, e.storeFrom_eq h d s stream' entered drunk']
    exact ⟨rfl, rfl⟩
  · obtain ⟨-, failure, finished⟩ := StoreCall.enter_of_not_takes takes
    rw [e.storeFrom_eq h d s stream rfl (StoreCall.drink_eq_of_finished _ _ finished stream),
      e.storeFrom_eq h d s stream' rfl (StoreCall.drink_eq_of_finished _ _ finished stream')]
    exact ⟨rfl, rfl⟩

end Endpoint

end MountSync
