/-
Which failures a call can end with.

A store or a delete fails internally in one way only: it has done its work and cannot let go of a
lock that its caller does not own any more.  If every client waits for its calls that does not
happen, so a delete never fails internally, and a store only if its stream brings such a failure,
which no stream that comes over a connection does.  Neither is ever told that somebody else holds a
lock: it needs one that its caller has, and asks for none.
-/
import MountSync.Proofs.Mount
import MountSync.Proofs.Traffic.Orderly
import MountSync.Server.Message

namespace MountSync

/-- What a call is told when it succeeds makes no difference to its failures. -/
theorem Failure.of_map {α β : Type} {r : Except Failure α} {f : α → β} {g : Failure}
    (h : r.map f = .error g) : r = .error g := by
  cases r with
  | error failure => exact congrArg Except.error (Except.error.inj h)
  | ok a => cases h

/-- A failure that is neither internal nor due to a lock that somebody else holds. -/
def Failure.Plain (g : Failure) : Prop := g.kind ≠ .internal ∧ g.kind ≠ .resourceExhausted

namespace Mount

variable {m : Mount} {name : String} {g : Failure}

theorem plain_of_checkName (h : checkName name = .error g) : g.Plain := by
  rw [failure_of_checkName h]
  exact ⟨nofun, nofun⟩

theorem plain_of_statFile (h : m.statFile name = .error g) : g.Plain := by
  rcases failure_of_statFile h with rfl | ⟨fault, rfl⟩
  · exact ⟨nofun, nofun⟩
  · exact ⟨nofun, nofun⟩

theorem plain_of_enumerate (h : m.enumerate = .error g) : g.Plain := by
  rcases failure_of_enumerate h with ⟨name, rfl⟩ | ⟨fault, rfl⟩
  · exact ⟨nofun, nofun⟩
  · exact ⟨nofun, nofun⟩

end Mount

/-- The failure that a store ends with, from the moment at which it is known. -/
def StorePhase.failure? : StorePhase → Option Failure
  | .givingUp failure | .disposing failure _ | .finished (.error failure) => some failure
  | _ => none

def DeletePhase.failure? : DeletePhase → Option Failure
  | .disposing failure _ | .finished (.error failure) => some failure
  | _ => none

/-- The failure that a stream brings to a store. -/
def Arrival.failure? : Arrival → Option Failure
  | .refused failure | .broken failure => some failure
  | _ => none

/-! ### The failures of a store, one step after the other

A failure is known some steps before the call ends with it.  So each function of the step is asked
what it adds to the failures that are known, and `failure_step` puts the answers together.
-/

namespace StoreCall

variable {e e' : Endpoint} {now : Moment} {c c' : StoreCall} {g : Failure}

theorem failure_of_result {failure : Failure} (h : c.result? = some (.error failure)) :
    c.phase.failure? = some failure := by
  unfold result? at h
  split at h
  · rename_i hp
    cases h
    rw [hp, StorePhase.failure?]
  · cases h

/-- Who is no owner is told so; nobody is told who the owner is. -/
theorem failure_checkCaller (h : (c.checkCaller e now).phase.failure? = some g) :
    g.Plain := by
  unfold checkCaller at h
  split at h
  · rename_i refusal hc
    cases h
    exact Mount.plain_of_checkName hc
  · split at h
    · cases h
    · split at h
      · cases h
      · cases h
        exact ⟨nofun, nofun⟩

theorem failure_decideCopy (h : (c.decideCopy e now).2.phase.failure? = some g) :
    g.Plain := by
  unfold decideCopy at h
  split at h
  · rename_i failure hstat
    cases h
    exact Mount.plain_of_statFile hstat
  · split at h
    · cases h
      exact ⟨nofun, nofun⟩
    · cases h
      exact ⟨nofun, nofun⟩
    · split at h
      · cases h
        exact ⟨nofun, nofun⟩
      · cases h

theorem failure_openPartial (h : (c.openPartial e now).2.phase.failure? = some g) :
    g.Plain := by
  unfold openPartial at h
  split at h
  · cases h
    exact ⟨nofun, nofun⟩
  · cases h

/-- The mount is the only one to object here, and its failures are plain. -/
theorem failure_installContent {intake : Intake}
    (h : (c.installContent e intake).2.phase.failure? = some g) : g.Plain := by
  unfold installContent at h
  split at h
  · cases h
    exact ⟨nofun, nofun⟩
  · cases h

/-- Letting go of the lock fails only for somebody who does not own it. -/
theorem failure_conclude {received : Nat} (h : (c.conclude e received).2.phase.failure? = some g) :
    g.kind = .internal ∧ e.locks.ownerOf c.name ≠ some c.client := by
  unfold conclude at h
  dsimp only at h
  split at h
  · rename_i locks hl
    cases h
    refine ⟨rfl, ?_⟩
    intro owned
    have hfree := LockTable.release_of_owner owned
    rw [show (e.locks.release c.name c.client).2 = false from congrArg Prod.snd hl] at hfree
    exact nomatch hfree
  · cases h

/-- Content that is cut short or altered is a plain failure. -/
theorem plain_of_mismatch {i : Intake} {h : StoreHeader} (hm : i.mismatch h = some g) :
    g.Plain := by
  unfold Intake.mismatch at hm
  split at hm
  · cases hm
    exact ⟨nofun, nofun⟩
  · split at hm
    · cases hm
      exact ⟨nofun, nofun⟩
    · cases hm

/-- A step brings no other than a plain failure, unless it cannot let go of a lock that is not held.
-/
theorem failure_step (hstep : c.step e now = (e', c')) (h : c'.phase.failure? = some g) :
    c.phase.failure? = some g ∨ g.Plain ∨
      g.kind = .internal ∧ c.phase.relies = true ∧ e.locks.ownerOf c.name ≠ some c.client := by
  obtain rfl : (c.step e now).2 = c' := congrArg Prod.snd hstep
  unfold step at h
  -- A failure that was there before stays; a new one comes from the one thing that the phase does.
  cases hp : c.phase with
  | arrived =>
      rw [hp] at h
      exact Or.inr (Or.inl (failure_checkCaller h))
  | expired =>
      simp only [hp] at h
      split at h
      · cases h
        exact Or.inr (Or.inl ⟨nofun, nofun⟩)
      · cases h
        exact Or.inr (Or.inl ⟨nofun, nofun⟩)
  | owner =>
      rw [hp] at h
      exact Or.inr (Or.inl (failure_decideCopy h))
  | opening =>
      rw [hp] at h
      exact Or.inr (Or.inl (failure_openPartial h))
  | complete intake =>
      rw [hp] at h
      exact Or.inr (Or.inl (failure_installContent h))
  | installed received =>
      rw [hp] at h
      obtain ⟨internal, lost⟩ := failure_conclude h
      exact Or.inr (Or.inr ⟨internal, rfl, lost⟩)
  | receiving intake => simp [hp, StorePhase.failure?] at h
  | givingUp failure =>
      simp only [hp] at h
      exact Or.inl h
  | disposing failure present =>
      simp only [hp] at h
      exact Or.inl h
  | finished result =>
      simp only [hp] at h
      exact Or.inl h

/-- What the stream brings is a plain failure, or the one that the stream says. -/
theorem failure_take {a : Arrival} (htake : c.take e now a = (e', c'))
    (h : c'.phase.failure? = some g) :
    c.phase.failure? = some g ∨ g.Plain ∨ a.failure? = some g := by
  obtain rfl : (c.take e now a).2 = c' := congrArg Prod.snd htake
  unfold take at h
  cases hp : c.phase with
  | receiving intake =>
      simp only [hp] at h
      refine Or.inr ?_
      cases a with
      | chunk piece =>
          dsimp only at h
          split at h
          · cases h
            exact Or.inl ⟨nofun, nofun⟩
          · cases h
      | ended =>
          dsimp only at h
          split at h
          · rename_i failure hm
            cases h
            exact Or.inl (plain_of_mismatch hm)
          · cases h
      | refused failure =>
          cases h
          exact Or.inr rfl
      | broken failure =>
          cases h
          exact Or.inr rfl
      | late =>
          cases h
          exact Or.inl ⟨nofun, nofun⟩
  | _ =>
      simp only [hp] at h
      exact Or.inl h

end StoreCall

/-! ### The failures of a delete

There is no stream that could bring a failure, so what is left is the lock at the end.
-/

namespace DeleteCall

variable {e e' : Endpoint} {now : Moment} {c c' : DeleteCall} {g : Failure}

theorem failure_of_result {failure : Failure} (h : c.result? = some (.error failure)) :
    c.phase.failure? = some failure := by
  unfold result? at h
  split at h
  · rename_i hp
    cases h
    rw [hp, DeletePhase.failure?]
  · cases h

theorem failure_checkCaller (h : (c.checkCaller e).phase.failure? = some g) :
    g.Plain := by
  unfold checkCaller at h
  split at h
  · rename_i refusal hc
    cases h
    exact Mount.plain_of_checkName hc
  · split at h
    · cases h
    · cases h
      exact ⟨nofun, nofun⟩

theorem failure_conclude (h : (c.conclude e).2.phase.failure? = some g) :
    g.kind = .internal ∧ e.locks.ownerOf c.name ≠ some c.client := by
  unfold conclude at h
  split at h
  · rename_i locks hl
    cases h
    refine ⟨rfl, ?_⟩
    intro owned
    have hfree := LockTable.delete_of_owner owned
    rw [show (e.locks.delete c.name c.client).2 = false from congrArg Prod.snd hl] at hfree
    exact nomatch hfree
  · cases h

/-- A step brings no other than a plain failure, unless it cannot let go of a lock that is not held.
-/
theorem failure_step (hstep : c.step e now = (e', c')) (h : c'.phase.failure? = some g) :
    c.phase.failure? = some g ∨ g.Plain ∨
      g.kind = .internal ∧ c.phase.relies = true ∧ e.locks.ownerOf c.name ≠ some c.client := by
  obtain rfl : (c.step e now).2 = c' := congrArg Prod.snd hstep
  unfold step at h
  cases hp : c.phase with
  | arrived =>
      rw [hp] at h
      exact Or.inr (Or.inl (failure_checkCaller h))
  | owner =>
      simp only [hp] at h
      split at h
      · cases h
      · split at h
        · cases h
          exact Or.inr (Or.inl ⟨nofun, nofun⟩)
        · cases h
  | present =>
      simp only [hp, remove] at h
      split at h <;> cases h
  | absent =>
      simp only [hp] at h
      cases h
      exact Or.inr (Or.inl ⟨nofun, nofun⟩)
  | removed =>
      rw [hp] at h
      obtain ⟨internal, lost⟩ := failure_conclude h
      exact Or.inr (Or.inr ⟨internal, rfl, lost⟩)
  | refused fault =>
      simp only [hp] at h
      cases h
      exact Or.inr (Or.inl ⟨nofun, nofun⟩)
  | disposing failure present =>
      simp only [hp] at h
      exact Or.inl h
  | finished result =>
      simp only [hp] at h
      exact Or.inl h

end DeleteCall

/-- What arrives on a connection only brings plain failures. -/
theorem plain_of_arrival {m : Message} {a : Arrival} {g : Failure} (h : m.arrival? = some a)
    (hg : a.failure? = some g) : g.Plain := by
  unfold Message.arrival? at h
  split at h
  · split at h <;> cases h <;> cases hg <;> exact ⟨nofun, nofun⟩
  · cases h
  · cases h
    cases hg
    exact ⟨nofun, nofun⟩
  · cases h
    cases hg
    exact ⟨nofun, nofun⟩

namespace Traffic

/-! ### Internal failures in an orderly run

If every client waits for its calls, a call that relies on a lock has it.  That leaves no way into
the one internal failure of a store or a delete.
-/

/-- An internal failure of a store is one that its stream has brought. -/
theorem internal_of_store (e : Endpoint) : ∀ moves t, (idle e).run moves = some t →
    (idle e).OrderlyRun moves → ∀ (k : Nat) (c : StoreCall) (g : Failure),
      t.calls[k]? = some (.store c) → c.phase.failure? = some g → g.kind = .internal →
      ∃ now a, (now, Move.stream k a) ∈ moves ∧ a.failure? = some g := by
  refine run_induction (fun _ k c g hk => by simp [idle] at hk) ?_
  intro moves t now move t' hrun hnext ih orderly k c' g hk' hg internal
  have before : ∀ c : StoreCall, t.calls[k]? = some (.store c) → c.phase.failure? = some g →
      ∃ n a, (n, Move.stream k a) ∈ moves ++ [(now, move)] ∧ a.failure? = some g := by
    intro c hk hc
    obtain ⟨n, a, hmem, ha⟩ := ih orderly.of_concat k c g hk hc internal
    exact ⟨n, a, List.mem_append_left _ hmem, ha⟩
  rcases call_of_turn (turn_of_next hnext) hk' with ⟨hk, -⟩ | ⟨r, hk, acts⟩ | ⟨-, fresh, -⟩
  · exact before c' hk hg
  · cases acts with
    | @store c _ _ limit hstep =>
        rcases StoreCall.failure_step hstep hg with hc | plain | ⟨-, relies, lost⟩
        · exact before c hk hc
        · exact absurd internal plain.1
        · exact absurd (owner_of_relies hrun orderly.of_concat hk relies rfl) lost
    | @take c _ _ a htake =>
        rcases StoreCall.failure_take htake hg with hc | plain | ha
        · exact before c hk hc
        · exact absurd internal plain.1
        · exact ⟨now, a, List.mem_append_right _ (List.mem_singleton.2 rfl), ha⟩
  · rw [Running.phase_of_fresh_store fresh] at hg
    simp [StorePhase.failure?] at hg

theorem not_internal_of_delete (e : Endpoint) : ∀ moves t, (idle e).run moves = some t →
    (idle e).OrderlyRun moves → ∀ (k : Nat) (c : DeleteCall) (g : Failure),
      t.calls[k]? = some (.delete c) → c.phase.failure? = some g → g.kind ≠ .internal := by
  refine run_induction (fun _ k c g hk => by simp [idle] at hk) ?_
  intro moves t now move t' hrun hnext ih orderly k c' g hk' hg
  rcases call_of_turn (turn_of_next hnext) hk' with ⟨hk, -⟩ | ⟨r, hk, acts⟩ | ⟨-, fresh, -⟩
  · exact ih orderly.of_concat k c' g hk hg
  · cases acts with
    | @delete c _ _ limit hstep =>
        rcases DeleteCall.failure_step hstep hg with hc | plain | ⟨-, relies, lost⟩
        · exact ih orderly.of_concat k c g hk hc
        · exact plain.1
        · exact absurd (owner_of_relies hrun orderly.of_concat hk relies rfl) lost
  · rw [Running.phase_of_fresh_delete fresh] at hg
    simp [DeletePhase.failure?] at hg

end Traffic

end MountSync
