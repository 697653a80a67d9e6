/-
What a fetch has sent.

A fetch goes from one step to the next while anything at all may be done to the endpoint, and its
reader may take its time or go away.  Whatever happens, what has been delivered tells one of two
stories.  Either every message says that it brings content, and all of them announce the same
number of bytes.  Or there is a single message, which says that no copy is needed, and then the
fetch fails.  A fetch that succeeds tells the first one to its end: at least one message, and as
many bytes as were announced.

`Told` says this of each phase.  It counts on nothing but how many bytes were sent, so it does not
matter what is in the file.
-/
import MountSync.Proofs.Endpoint.Fetch
import MountSync.Proofs.Traffic.OpenFile

namespace MountSync

/-- Messages that are a file of `n` bytes. -/
structure FetchChunk.Whole (n : Nat) (messages : List FetchChunk) : Prop where
  some : messages ≠ []
  needed : ∀ m ∈ messages, m.copyNeeded = true
  announced : ∀ m ∈ messages, m.fileSize.toNat = n
  length : (contentOf messages).length = n

/-- The one message that no copy is needed. -/
def FetchChunk.Declining (m : FetchChunk) : Prop := m.copyNeeded = false ∧ m.content = []

/-- Messages of a fetch that has failed. -/
def FetchChunk.Broken (messages : List FetchChunk) : Prop :=
  (∀ m ∈ messages, m.copyNeeded = true) ∨ ∃ m, messages = [m] ∧ m.Declining

theorem FetchChunk.length_contentOf_concat (messages : List FetchChunk) (m : FetchChunk) :
    (contentOf (messages ++ [m])).length = (contentOf messages).length + m.content.length := by
  rw [contentOf, List.flatMap_append, List.flatMap_singleton, List.length_append, contentOf]

/-- What has been delivered of an open file. -/
structure Sending.Brought (s : Sending) (messages : List FetchChunk) : Prop where
  needed : ∀ m ∈ messages, m.copyNeeded = true
  announced : ∀ m ∈ messages, m.fileSize = s.record.size
  length : (FetchChunk.contentOf messages).length = s.sent

namespace Sending

variable {s : Sending} {m : Mount} {messages : List FetchChunk}

/-- Looking at the file again changes neither what was announced nor what was sent. -/
theorem refresh_sent (s : Sending) (m : Mount) :
    (s.refresh m).record = s.record ∧ (s.refresh m).sent = s.sent := by
  unfold refresh
  split
  · split <;> exact ⟨rfl, rfl⟩
  · exact ⟨rfl, rfl⟩

theorem Brought.refresh (h : s.Brought messages) (m : Mount) : (s.refresh m).Brought messages := by
  obtain ⟨record, sent⟩ := s.refresh_sent m
  exact ⟨h.needed, record ▸ h.announced, sent ▸ h.length⟩

theorem Brought.message (h : s.Brought messages) (piece : Bytes) :
    (s.advance piece).Brought (messages ++ [s.message piece]) where
  needed := List.forall_mem_append.2 ⟨h.needed, List.forall_mem_singleton.2 rfl⟩
  announced := List.forall_mem_append.2 ⟨h.announced, List.forall_mem_singleton.2 rfl⟩
  length := by
    rw [FetchChunk.length_contentOf_concat, h.length]
    rfl

/-- A file of which all has been delivered. -/
theorem Brought.whole (h : s.Brought messages) (all : s.sent = s.record.size.toNat)
    (some : messages ≠ []) : FetchChunk.Whole s.sent messages where
  some := some
  needed := h.needed
  announced := fun message mem => (congrArg UInt64.toNat (h.announced message mem)).trans all.symm
  length := h.length

/-- An empty file is delivered as one message without content. -/
theorem Brought.blank (h : s.Brought messages) (all : s.sent = s.record.size.toNat)
    (none : s.sent = 0) : FetchChunk.Whole 0 (messages ++ [.blank]) where
  some := List.append_ne_nil_of_right_ne_nil _ (List.cons_ne_nil _ _)
  needed := List.forall_mem_append.2 ⟨h.needed, List.forall_mem_singleton.2 rfl⟩
  announced := by
    refine List.forall_mem_append.2 ⟨fun message mem => ?_, List.forall_mem_singleton.2 rfl⟩
    exact (congrArg UInt64.toNat (h.announced message mem)).trans (all.symm.trans none)
  length := by
    rw [FetchChunk.length_contentOf_concat, h.length, none]
    rfl

end Sending

/-! ### Phase by phase

A message that is offered is not delivered yet, so what a phase tells is about the messages before
it and, once it was taken, about that one too.
-/

/-- What has been delivered when a fetch has come to a phase. -/
def FetchPhase.Told : FetchPhase → List FetchChunk → Prop
  | .arrived, messages | .found _, messages | .opening _, messages => messages = []
  | .reading s, messages => s.Brought messages
  | .offering m (.goOn s), messages => s.Brought (messages ++ [m])
  | .offering m (.refuse _), messages => messages = [] ∧ m.Declining
  | .offering m (.conclude n), messages => FetchChunk.Whole n (messages ++ [m])
  | .finished (.ok n), messages => FetchChunk.Whole n messages
  | .finished (.error _), messages => FetchChunk.Broken messages

/-- The messages, with the one that is offered. -/
def FetchPhase.withOffer : FetchPhase → List FetchChunk → List FetchChunk
  | .offering m _, messages => messages ++ [m]
  | _, messages => messages

namespace FetchPhase.Told

variable {p p' : FetchPhase} {messages : List FetchChunk}

/-- A fetch can fail at any time. -/
theorem broken (h : p.Told messages) : FetchChunk.Broken messages := by
  cases p with
  | arrived | found _ | opening _ =>
      obtain rfl : messages = [] := h
      exact Or.inl nofun
  | reading s => exact Or.inl (Sending.Brought.needed h)
  | offering m next =>
      cases next with
      | refuse failure =>
          obtain ⟨rfl, -⟩ : messages = [] ∧ m.Declining := h
          exact Or.inl nofun
      | goOn s => exact Or.inl (List.forall_mem_append.1 (Sending.Brought.needed h)).1
      | conclude n => exact Or.inl (List.forall_mem_append.1 (FetchChunk.Whole.needed h)).1
  | finished result =>
      cases result with
      | ok n => exact Or.inl (FetchChunk.Whole.needed h)
      | error failure => exact h

/-- It can fail with the message delivered that it has offered. -/
theorem broken_withOffer (h : p.Told messages) : FetchChunk.Broken (p.withOffer messages) := by
  cases p with
  | offering m next =>
      cases next with
      | refuse failure =>
          obtain ⟨rfl, declining⟩ : messages = [] ∧ m.Declining := h
          exact Or.inr ⟨m, rfl, declining⟩
      | goOn s => exact Or.inl (Sending.Brought.needed h)
      | conclude n => exact Or.inl (FetchChunk.Whole.needed h)
  | arrived | found _ | opening _ | reading _ | finished _ => exact h.broken

/-- A step delivers nothing. -/
theorem step {m : Mount} {name : String} {limit : Nat} (h : p.Told messages)
    (step : FetchStep m name limit p p')
    (ended : ∀ s n, p = .reading s → p' = .finished (.ok n) → n ≠ 0) : p'.Told messages := by
  cases step with
  | looked | decided => exact h
  | declined =>
      obtain rfl : messages = [] := h
      exact ⟨rfl, rfl, rfl⟩
  | opened =>
      obtain rfl : messages = [] := h
      exact ⟨nofun, nofun, rfl⟩
  | read same =>
      subst same
      exact (Sending.Brought.refresh h m).message _
  | emptied same all none =>
      subst same
      exact (Sending.Brought.refresh h m).blank all none
  | ended same all =>
      subst same
      have brought := Sending.Brought.refresh h m
      refine brought.whole all ?_
      rintro rfl
      exact ended _ _ rfl rfl brought.length.symm
  | failed => exact h.broken
  | rested => exact h

/-- Handing a message over delivers it, if there is a reader who takes it. -/
theorem handOver {outcome : Handover} (h : p.Told messages)
    (handed : FetchHandover outcome p p') :
    p'.Told (if outcome = .delivered then p.withOffer messages else messages) := by
  cases handed with
  | wentOn | concluded =>
      rw [if_pos rfl]
      exact h
  | failed =>
      split
      · exact h.broken_withOffer
      · exact h.broken
  | rested nothing =>
      have none : p.withOffer messages = messages := by
        cases p with
        | offering m next => exact absurd rfl (nothing m next)
        | _ => rfl
      rw [none, ite_self]
      exact h

end FetchPhase.Told

namespace FetchCall

variable {c₀ c : FetchCall} {messages : List FetchChunk}

/-- A fetch that ends as it reads has sent something. -/
theorem sent_of_ended {e : Endpoint} {now : Moment} {limit n : Nat} {s : Sending}
    (reading : c.phase = .reading s)
    (ended : (c.step e now limit).2.phase = .finished (.ok n)) : n ≠ 0 := by
  unfold step at ended
  rw [reading] at ended
  dsimp only at ended
  unfold read at ended
  split at ended
  · exact nomatch ended
  · dsimp only at ended
    split at ended
    · unfold close at ended
      split at ended
      · exact nomatch ended
      · split at ended
        · exact nomatch ended
        · rename_i some
          cases ended
          exact some
    · exact nomatch ended

/-- How far a fetch can come, and what can be delivered of it, while anything is done to the
endpoint between its steps. -/
inductive Sent (c₀ : FetchCall) : FetchCall → List FetchChunk → Prop
  | begun : Sent c₀ c₀ []
  | step {c : FetchCall} {messages : List FetchChunk} (e : Endpoint) (now : Moment) (limit : Nat) :
      Sent c₀ c messages → Sent c₀ (c.step e now limit).2 messages
  | handOver {c : FetchCall} {messages : List FetchChunk} (e : Endpoint) (outcome : Handover) :
      Sent c₀ c messages →
        Sent c₀ (c.handOver e outcome).2
          (if outcome = .delivered then c.phase.withOffer messages else messages)

theorem Sent.told (h : Sent c₀ c messages) (fresh : c₀.phase = .arrived) :
    c.phase.Told messages := by
  induction h with
  | begun =>
      rw [fresh]
      rfl
  | step e now limit _ ih =>
      refine ih.step (FetchCall.step_cases e now limit _).1 ?_
      intro s n reading ended
      exact sent_of_ended reading ended
  | handOver e outcome _ ih => exact ih.handOver (FetchCall.handOver_cases e outcome _).1

/-- **Whatever is done to the endpoint meanwhile, a fetch that says that no copy is needed says
nothing else and fails, and a fetch that succeeds has delivered as much as it announced, in at least
one message.** -/
theorem Sent.tells (h : Sent c₀ c messages) (fresh : c₀.phase = .arrived) :
    (∀ m ∈ messages, m.copyNeeded = false → messages = [m] ∧ m.content = [] ∧
      ∃ failure, c.result? = some (.error failure)) ∧
    ∀ n, c.result? = some (.ok n) → FetchChunk.Whole n messages := by
  have told := h.told fresh
  have succeeds : ∀ n, c.result? = some (.ok n) → FetchChunk.Whole n messages := by
    intro n is
    unfold result? at is
    split at is
    · rename_i result phase
      cases is
      rw [phase] at told
      exact told
    · exact nomatch is
  refine ⟨fun m mem declines => ?_, succeeds⟩
  have none : ¬ ∀ m ∈ messages, m.copyNeeded = true := fun needed =>
    Bool.false_ne_true (declines.symm.trans (needed m mem))
  obtain ⟨m', rfl, -, empty⟩ := told.broken.resolve_left none
  obtain rfl := List.mem_singleton.1 mem
  refine ⟨rfl, empty, ?_⟩
  -- Only a fetch that is over has delivered that message.
  unfold result?
  cases phase : c.phase with
  | arrived | found _ | opening _ =>
      rw [phase] at told
      exact nomatch told
  | reading s =>
      rw [phase] at told
      exact absurd (Sending.Brought.needed told) none
  | offering m' next =>
      rw [phase] at told
      cases next with
      | refuse failure => exact nomatch told.1
      | goOn s => exact absurd (List.forall_mem_append.1 (Sending.Brought.needed told)).1 none
      | conclude n => exact absurd (List.forall_mem_append.1 (FetchChunk.Whole.needed told)).1 none
  | finished result =>
      cases result with
      | ok n =>
          rw [phase] at told
          exact absurd (FetchChunk.Whole.needed told) none
      | error failure => exact ⟨failure, rfl⟩

/-! ### A fetch that runs alone -/

theorem Sent.run (now : Moment) (limits : Nat → Nat) (reader : Nat → Handover) (fuel sent : Nat)
    (e : Endpoint) (h : Sent c₀ c messages) :
    Sent c₀ (run now limits reader fuel sent e c).2.1
      (messages ++ (run now limits reader fuel sent e c).2.2) := by
  induction fuel generalizing sent e c messages with
  | zero =>
      rw [FetchCall.run, List.append_nil]
      exact h
  | succ fuel ih =>
      unfold FetchCall.run
      split
      · rw [List.append_nil]
        exact h
      · rename_i m next phase
        have handed := h.handOver e (reader sent)
        have offer : c.phase.withOffer messages = messages ++ [m] := by rw [phase]; rfl
        rw [offer] at handed
        have rest := ih (sent + 1) (c.handOver e (reader sent)).1 handed
        dsimp only
        split
        · rename_i delivered
          rw [if_pos delivered] at rest
          rw [List.append_cons]
          exact rest
        · rename_i lost
          rw [if_neg lost] at rest
          exact rest
      · exact ih sent _ (h.step e now (limits sent))

/-- A fetch that runs alone is one of them. -/
theorem Sent.finish (e : Endpoint) (s : Schedule) (limits : Nat → Nat) (reader : Nat → Handover)
    (c₀ : FetchCall) :
    Sent c₀ ((c₀.enter e s (limits 0)).2.finish (c₀.enter e s (limits 0)).1 s.transfer limits
        reader).2.1
      ((c₀.enter e s (limits 0)).2.finish (c₀.enter e s (limits 0)).1 s.transfer limits
        reader).2.2 := by
  let r₁ := c₀.step e s.arrival (limits 0)
  let r₂ := r₁.2.step r₁.1 s.decision (limits 0)
  let r₃ := r₂.2.step r₂.1 s.transfer (limits 0)
  have first : Sent c₀ r₁.2 [] := Sent.begun.step e s.arrival (limits 0)
  have second : Sent c₀ r₂.2 [] := first.step r₁.1 s.decision (limits 0)
  have third : Sent c₀ r₃.2 [] := second.step r₂.1 s.transfer (limits 0)
  have entered : Sent c₀ (c₀.enter e s (limits 0)).2 [] := third.step r₃.1 s.transfer (limits 0)
  exact entered.run s.transfer limits reader _ 0 _

end FetchCall

end MountSync
