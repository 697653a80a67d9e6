/-
A call that runs alone, from its beginning to its end.

Each call has a number of steps left to it, at most, until it is over or has to wait for its stream;
a call that runs alone is given as many.  So it is over in the end, and whatever each of its steps
preserves is true of it then.
-/
import MountSync.Endpoint.Delete
import MountSync.Endpoint.Query
import MountSync.Endpoint.Store

namespace MountSync

/-! ### Stores

Each step leaves one step less, except that a part of the stream may bring three more.  So a store
that takes one part after another is over when its stream is.
-/

/-- The most steps that a store can take before it is over or waits. -/
def StorePhase.left : StorePhase → Nat
  | .arrived => 5
  | .owner => 4
  | .expired | .opening | .complete _ => 3
  | .givingUp _ => 2
  | .installed _ | .disposing _ _ => 1
  | .receiving _ | .finished _ => 0

namespace StoreCall

variable {P : Endpoint → StoreCall → Prop} {e : Endpoint} {now : Moment} {c : StoreCall}
  {stream : List Arrival}

/-- Each step is one less. -/
theorem left_step (e : Endpoint) (now : Moment) (c : StoreCall) :
    (c.step e now).2.phase.left ≤ c.phase.left - 1 := by
  unfold step
  cases phase : c.phase with
  | arrived =>
      show (c.checkCaller e now).phase.left ≤ 4
      unfold checkCaller
      split
      · exact Nat.zero_le _
      · split
        · exact Nat.le_succ _
        · split
          · exact Nat.le_refl _
          · exact Nat.zero_le _
  | expired =>
      dsimp only
      split
      · exact Nat.le_refl _
      · exact Nat.zero_le _
  | owner =>
      show (c.decideCopy e now).2.phase.left ≤ 3
      unfold decideCopy
      split
      · exact Nat.le_succ _
      · split
        · exact Nat.le_add_left 1 2
        · exact Nat.le_add_left 1 2
        · split
          · exact Nat.le_succ _
          · exact Nat.le_refl _
  | opening =>
      show (c.openPartial e now).2.phase.left ≤ 2
      unfold openPartial
      split
      · exact Nat.le_refl _
      · exact Nat.zero_le _
  | receiving intake =>
      dsimp only
      rw [phase]
      exact Nat.zero_le _
  | complete intake =>
      show (c.installContent e intake).2.phase.left ≤ 2
      unfold installContent
      split
      · exact Nat.le_refl _
      · exact Nat.le_succ _
  | installed received =>
      show (c.conclude e received).2.phase.left ≤ 0
      unfold conclude
      dsimp only
      split <;> exact Nat.le_refl _
  | givingUp failure => exact Nat.le_refl _
  | disposing failure present => exact Nat.le_refl _
  | finished result =>
      dsimp only
      rw [phase]
      exact Nat.le_refl _

theorem left_settle (h : c.phase.left ≤ 3) : (c.settle e now).2.phase.left = 0 := by
  let r₁ := c.step e now
  let r₂ := r₁.2.step r₁.1 now
  let r₃ := r₂.2.step r₂.1 now
  have first : r₁.2.phase.left ≤ c.phase.left - 1 := c.left_step e now
  have second : r₂.2.phase.left ≤ r₁.2.phase.left - 1 := r₁.2.left_step r₁.1 now
  have third : r₃.2.phase.left ≤ r₂.2.phase.left - 1 := r₂.2.left_step r₂.1 now
  show r₃.2.phase.left = 0
  omega

/-- What comes of a part of the stream takes no more than three steps. -/
theorem left_take (a : Arrival) (h : c.phase.left = 0) : (c.take e now a).2.phase.left ≤ 3 := by
  unfold take
  split
  · split
    · split
      · exact Nat.le_succ _
      · exact Nat.zero_le _
    · split
      · exact Nat.le_succ _
      · exact Nat.le_refl _
    · exact Nat.le_succ _
    · exact Nat.le_succ _
    · exact Nat.le_succ _
  · dsimp only
    omega

theorem left_enter (e : Endpoint) (s : Schedule) (h : StoreHeader) (d : Deadline) :
    ((begin h d).enter e s).2.phase.left = 0 := by
  let r₁ := (begin h d).step e s.arrival
  let r₂ := r₁.2.step r₁.1 s.decision
  have first : r₁.2.phase.left ≤ 4 := (begin h d).left_step e s.arrival
  have second : r₂.2.phase.left ≤ r₁.2.phase.left - 1 := r₁.2.left_step r₁.1 s.decision
  have few : r₂.2.phase.left ≤ 3 := by omega
  exact left_settle few

/-- A store that only waits is over when its stream is. -/
theorem finished_drink (h : c.phase.left = 0) :
    ∃ result, (c.drink e now stream).2.1.phase = .finished result := by
  induction stream generalizing e c with
  | nil =>
      cases phase : c.phase with
      | receiving intake =>
          have taken : c.take e now .late = c.reject e intake .deadlineExceeded := by
            rw [take, phase]
          refine ⟨.error .deadlineExceeded, ?_⟩
          rw [drink, takeAndSettle, taken]
          rfl
      | finished result =>
          have taken : c.take e now .late = (e, c) := by rw [take, phase]
          have still : ∀ e, c.step e now = (e, c) := fun e => by rw [step, phase]
          refine ⟨result, ?_⟩
          rw [drink, takeAndSettle, taken]
          simp only [settle, still]
          exact phase
      | _ =>
          rw [phase] at h
          exact nomatch h
  | cons a rest ih =>
      rw [drink]
      split
      · exact ih (left_settle (left_take a h))
      · rename_i waits
        cases phase : c.phase with
        | receiving intake =>
            rw [isReceiving, phase] at waits
            exact absurd rfl waits
        | finished result => exact ⟨result, rfl⟩
        | _ =>
            rw [phase] at h
            exact nomatch h

theorem settle_induction (step : ∀ e now c, P e c → P (c.step e now).1 (c.step e now).2)
    (h : P e c) : P (c.settle e now).1 (c.settle e now).2 :=
  step _ now _ (step _ now _ (step _ now _ h))

/-- By induction on the stream, which ends with what comes too late if nothing else ends it. -/
theorem drink_induction (step : ∀ e now c, P e c → P (c.step e now).1 (c.step e now).2)
    (take : ∀ e now c a, a ∈ stream ∨ a = .late → P e c →
      P (c.take e now a).1 (c.take e now a).2) (h : P e c) :
    P (c.drink e now stream).1 (c.drink e now stream).2.1 := by
  induction stream generalizing e c with
  | nil => exact settle_induction step (take e now c .late (Or.inr rfl) h)
  | cons a rest ih =>
      rw [drink]
      split
      · have taken := take e now c a (Or.inl (.head _)) h
        refine ih ?_ (settle_induction step taken)
        intro e now c b mem
        exact take e now c b (mem.imp_left (.tail _))
      · exact h

end StoreCall

namespace Endpoint

/-- A store is over in the end, and what each step and each part of the stream preserve is so. -/
theorem storeFrom_induction {P : Endpoint → StoreCall → Prop} (stream : List Arrival)
    (step : ∀ e now c, P e c → P (c.step e now).1 (c.step e now).2)
    (take : ∀ e now c a, a ∈ stream ∨ a = .late → P e c →
      P (c.take e now a).1 (c.take e now a).2)
    {e : Endpoint} {h : StoreHeader} {d : Deadline} (start : P e (.begin h d)) (s : Schedule) :
    ∃ c, c.phase = .finished (e.storeFrom h d s stream).2.1 ∧
      P (e.storeFrom h d s stream).1 c := by
  let r := (StoreCall.begin h d).enter e s
  let r' := r.2.drink r.1 s.transfer stream
  have stored : e.storeFrom h d s stream
      = (r'.1, r'.2.1.result?.getD (.error .deadlineExceeded), r'.2.2) := rfl
  obtain ⟨result, finished⟩ : ∃ result, r'.2.1.phase = .finished result :=
    StoreCall.finished_drink (StoreCall.left_enter e s h d)
  have told : r'.2.1.result? = some result := by rw [StoreCall.result?, finished]
  have entered : P r.1 r.2 := StoreCall.settle_induction step (step _ _ _ (step _ _ _ start))
  rw [stored, told]
  exact ⟨r'.2.1, finished, StoreCall.drink_induction step take entered⟩

end Endpoint

/-! ### Deletes -/

/-- The most steps that a delete can take before it is over. -/
def DeletePhase.left : DeletePhase → Nat
  | .arrived => 5
  | .owner => 4
  | .present => 3
  | .refused _ => 2
  | .absent | .removed | .disposing _ _ => 1
  | .finished _ => 0

theorem DeleteCall.left_step (e : Endpoint) (now : Moment) (c : DeleteCall) :
    (c.step e now).2.phase.left ≤ c.phase.left - 1 := by
  unfold step
  cases phase : c.phase with
  | arrived =>
      show (c.checkCaller e).phase.left ≤ 4
      unfold checkCaller
      split
      · exact Nat.zero_le _
      · split
        · exact Nat.le_refl _
        · exact Nat.zero_le _
  | owner =>
      dsimp only
      split
      · exact Nat.le_add_left 1 2
      · split
        · exact Nat.le_add_left 1 2
        · exact Nat.le_refl _
  | present =>
      show (c.remove e).2.phase.left ≤ 2
      unfold remove
      split
      · exact Nat.le_refl _
      · exact Nat.le_succ _
  | removed =>
      show (c.conclude e).2.phase.left ≤ 0
      unfold conclude
      split <;> exact Nat.le_refl _
  | absent => exact Nat.le_refl _
  | refused fault => exact Nat.le_refl _
  | disposing failure present => exact Nat.le_refl _
  | finished result =>
      dsimp only
      rw [phase]
      exact Nat.le_refl _

/-- A delete is over in the end, and what each step preserves is so. -/
theorem Endpoint.delete_induction {P : Endpoint → DeleteCall → Prop}
    (step : ∀ e now c, P e c → P (c.step e now).1 (c.step e now).2)
    {e : Endpoint} {name : String} {client : ClientId} {d : Deadline}
    (start : P e (.begin name client d)) (s : Schedule) :
    ∃ c, c.phase = .finished (e.delete name client d s).2 ∧ P (e.delete name client d s).1 c := by
  let r₁ := (DeleteCall.begin name client d).step e s.arrival
  let r₂ := r₁.2.step r₁.1 s.decision
  let r₃ := r₂.2.step r₂.1 s.transfer
  let r₄ := r₃.2.step r₃.1 s.transfer
  let r₅ := r₄.2.step r₄.1 s.transfer
  have deleted : e.delete name client d s
      = (r₅.1, r₅.2.result?.getD (.error .deadlineExceeded)) := rfl
  have done : r₅.2.phase.left = 0 := by
    have first : r₁.2.phase.left ≤ 4 := DeleteCall.left_step e s.arrival (.begin name client d)
    have second : r₂.2.phase.left ≤ r₁.2.phase.left - 1 := r₁.2.left_step ..
    have third : r₃.2.phase.left ≤ r₂.2.phase.left - 1 := r₂.2.left_step ..
    have fourth : r₄.2.phase.left ≤ r₃.2.phase.left - 1 := r₃.2.left_step ..
    have fifth : r₅.2.phase.left ≤ r₄.2.phase.left - 1 := r₄.2.left_step ..
    omega
  have third : P r₃.1 r₃.2 := step _ _ _ (step _ _ _ (step _ _ _ start))
  have last : P r₅.1 r₅.2 := step _ _ _ (step _ _ _ third)
  cases phase : r₅.2.phase with
  | finished result =>
      have told : r₅.2.result? = some result := by rw [DeleteCall.result?, phase]
      rw [deleted, told]
      exact ⟨r₅.2, phase, last⟩
  | _ =>
      rw [phase] at done
      exact nomatch done

/-! ### Comparisons -/

/-- What each step of a comparison preserves is so in the end. -/
theorem Endpoint.probe_induction {P : Endpoint → ProbeCall → Prop}
    (step : ∀ e now c, P e c → P (c.step e now).1 (c.step e now).2)
    {e : Endpoint} {name : String} {client : ClientId} {sum : UInt32} {d : Deadline}
    (start : P e (.begin name client sum d)) (now : Moment) :
    ∃ c, (e.probe name client sum d now).2 = c.result?.getD (.error .deadlineExceeded) ∧
      P (e.probe name client sum d now).1 c :=
  ⟨_, rfl, step _ _ _ (step _ _ _ (step _ _ _ start))⟩

end MountSync
