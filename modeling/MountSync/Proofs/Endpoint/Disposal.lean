/-
Letting go of a lock.

A store and a delete run under the lock of their file.  They have many ways out, and on each of them
the caller has let go of the lock when the call is over.  It makes no difference what is in the
mount, what the stream brings, and whether there is time left; only a name that is no name is
refused before anybody looks at the lock.

No call but that for a lock makes anybody the owner of anything.
-/
import MountSync.Proofs.Endpoint.Alone
import MountSync.Proofs.Endpoint.Turn

namespace MountSync

namespace Endpoint

variable {e : Endpoint} {name : String} {client : ClientId}

/-! ### Letting go of a lock

`disposeLock` is carried out for whoever holds the lock, and for nobody else.  If the caller is not
the owner it does nothing, so it never takes a lock away from another client.
-/

theorem disposeLock_of_not_owner (other : e.locks.isOwner name client = false) (present : Bool) :
    e.disposeLock name client present = e := by
  rw [disposeLock, LockTable.releaseOrDelete]
  cases present with
  | true => rw [if_pos rfl, LockTable.release_of_not_owner other]; rfl
  | false => rw [if_neg Bool.false_ne_true, LockTable.delete_of_not_owner other]; rfl

/-- A lock that is let go of has no owner then, unless it was somebody else's. -/
theorem ownerOf_disposeLock (e : Endpoint) (name : String) (client : ClientId) (present : Bool) :
    (e.disposeLock name client present).locks.ownerOf name
      = if e.locks.ownerOf name = some client then none else e.locks.ownerOf name := by
  rw [disposeLock, LockTable.releaseOrDelete]
  cases present with
  | true => exact LockTable.ownerOf_release ..
  | false => exact LockTable.ownerOf_delete ..

theorem ownerOf_disposeLock_ne {other : String} (h : other ≠ name) (present : Bool) :
    (e.disposeLock name client present).locks.ownerOf other = e.locks.ownerOf other := by
  rw [disposeLock, LockTable.releaseOrDelete]
  cases present with
  | true => exact LockTable.ownerOf_release_ne h
  | false => exact LockTable.ownerOf_delete_ne h

/-- Letting go of a lock makes nobody the owner of anything. -/
theorem ownerOf_of_disposeLock {present : Bool} {file : String} {owner : ClientId}
    (h : (e.disposeLock name client present).locks.ownerOf file = some owner) :
    e.locks.ownerOf file = some owner := by
  by_cases same : file = name
  · subst same
    rw [ownerOf_disposeLock] at h
    split at h
    · exact nomatch h
    · exact h
  · rwa [ownerOf_disposeLock_ne same] at h

/-- Whoever had the lock, the caller has it no more. -/
theorem not_owner_disposeLock (e : Endpoint) (name : String) (client : ClientId) (present : Bool) :
    (e.disposeLock name client present).locks.ownerOf name ≠ some client := by
  cases present with
  | true => exact LockTable.not_owner_release _ _ _
  | false => exact LockTable.not_owner_delete _ _ _

/-- No lock is granted on the way out. -/
theorem granted_disposeLock (e : Endpoint) (name : String) (client : ClientId) (present : Bool) :
    (e.disposeLock name client present).locks.granted = e.locks.granted := by
  rw [disposeLock, LockTable.releaseOrDelete]
  cases present with
  | true =>
      rw [if_pos rfl, LockTable.release]
      split <;> rfl
  | false =>
      rw [if_neg Bool.false_ne_true, LockTable.delete]
      split <;> rfl

end Endpoint

/-! ### Calls under a lock

Before the last step nothing is claimed, and the last step of each way out is one that lets go of
the lock.  A call that is not the owner's has nothing to let go of.
-/

namespace StoreCall

variable {e : Endpoint} {now : Moment} {c : StoreCall}

/-- Whether the caller has let go of the lock once the store is over. -/
def LetsGo (c : StoreCall) (e : Endpoint) : Prop :=
  ∀ result, c.phase = .finished result → e.locks.ownerOf c.name ≠ some c.client

theorem letsGo_checkCaller (accepted : Mount.accepts c.name = true) :
    (c.checkCaller e now).LetsGo e := by
  intro result finished
  unfold checkCaller at finished ⊢
  rw [show Mount.checkName c.name = .ok () from if_pos accepted] at finished ⊢
  dsimp only at finished ⊢
  split at finished
  · exact nomatch finished
  · split at finished
    · exact nomatch finished
    · rename_i late other
      rw [if_neg late, if_neg other]
      exact fun owned => other (LockTable.isOwner_iff.2 owned)

theorem letsGo_conclude (received : Nat) :
    (c.conclude e received).2.LetsGo (c.conclude e received).1 := by
  intro result _
  unfold conclude
  dsimp only
  split
  · rename_i locks refused
    intro owned
    have owned' : e.locks.ownerOf c.name = some c.client := owned
    have free := LockTable.release_of_owner owned'
    rw [show (e.locks.release c.name c.client).2 = false from congrArg Prod.snd refused] at free
    exact nomatch free
  · rename_i locks released
    rw [show locks = (e.locks.release c.name c.client).1 from (congrArg Prod.fst released).symm]
    exact LockTable.not_owner_release _ _ _

/-- A step that is the last one leaves the caller without the lock. -/
theorem letsGo_step (accepted : Mount.accepts c.name = true) (h : c.LetsGo e) :
    (c.step e now).2.LetsGo (c.step e now).1 := by
  unfold step
  cases phase : c.phase with
  | arrived => exact letsGo_checkCaller accepted
  | expired =>
      dsimp only
      split
      · exact nofun
      · rename_i other
        exact fun _ _ owned => other (LockTable.isOwner_iff.2 owned)
  | owner =>
      show (c.decideCopy e now).2.LetsGo (c.decideCopy e now).1
      unfold decideCopy
      split
      · exact nofun
      · split
        · exact nofun
        · exact nofun
        · split <;> exact nofun
  | opening =>
      show (c.openPartial e now).2.LetsGo (c.openPartial e now).1
      unfold openPartial
      split <;> exact nofun
  | receiving intake => exact h
  | complete intake =>
      show (c.installContent e intake).2.LetsGo (c.installContent e intake).1
      unfold installContent
      split <;> exact nofun
  | installed received => exact letsGo_conclude received
  | givingUp failure => exact nofun
  | disposing failure present => exact fun _ _ => e.not_owner_disposeLock c.name c.client present
  | finished result => exact h

/-- Nothing that a stream brings is the end of a store. -/
theorem letsGo_take (h : c.LetsGo e) (a : Arrival) :
    (c.take e now a).2.LetsGo (c.take e now a).1 := by
  unfold take
  split
  · split
    · split <;> exact nofun
    · split <;> exact nofun
    · exact nofun
    · exact nofun
    · exact nofun
  · exact h

end StoreCall

namespace DeleteCall

variable {e : Endpoint} {now : Moment} {c : DeleteCall}

/-- Whether the caller has let go of the lock once the delete is over. -/
def LetsGo (c : DeleteCall) (e : Endpoint) : Prop :=
  ∀ result, c.phase = .finished result → e.locks.ownerOf c.name ≠ some c.client

theorem letsGo_checkCaller (accepted : Mount.accepts c.name = true) :
    (c.checkCaller e).LetsGo e := by
  intro result finished
  unfold checkCaller at finished ⊢
  rw [show Mount.checkName c.name = .ok () from if_pos accepted] at finished ⊢
  dsimp only at finished ⊢
  split at finished
  · exact nomatch finished
  · rename_i other
    rw [if_neg other]
    exact fun owned => other (LockTable.isOwner_iff.2 owned)

theorem letsGo_conclude : (c.conclude e).2.LetsGo (c.conclude e).1 := by
  intro result _
  unfold conclude
  split
  · rename_i locks refused
    intro owned
    have owned' : e.locks.ownerOf c.name = some c.client := owned
    have free := LockTable.delete_of_owner owned'
    rw [show (e.locks.delete c.name c.client).2 = false from congrArg Prod.snd refused] at free
    exact nomatch free
  · rename_i locks deleted
    rw [show locks = (e.locks.delete c.name c.client).1 from (congrArg Prod.fst deleted).symm]
    exact LockTable.not_owner_delete _ _ _

/-- A step that is the last one leaves the caller without the lock. -/
theorem letsGo_step (accepted : Mount.accepts c.name = true) (h : c.LetsGo e) :
    (c.step e now).2.LetsGo (c.step e now).1 := by
  unfold step
  cases phase : c.phase with
  | arrived => exact letsGo_checkCaller accepted
  | owner =>
      dsimp only
      split
      · exact nofun
      · split <;> exact nofun
  | present =>
      show (c.remove e).2.LetsGo (c.remove e).1
      unfold remove
      split <;> exact nofun
  | absent => exact fun _ _ => e.not_owner_disposeLock c.name c.client false
  | removed => exact letsGo_conclude
  | refused fault => exact nofun
  | disposing failure present => exact fun _ _ => e.not_owner_disposeLock c.name c.client present
  | finished result => exact h

end DeleteCall

namespace Endpoint

variable {name : String} {client : ClientId}

theorem not_owner_storeFrom (e : Endpoint) {h : StoreHeader}
    (accepted : Mount.accepts h.name = true) (deadline : Deadline) (s : Schedule)
    (stream : List Arrival) :
    (e.storeFrom h deadline s stream).1.locks.ownerOf h.name ≠ some h.client := by
  have step : ∀ (e : Endpoint) (now : Moment) (c : StoreCall), c.header = h ∧ c.LetsGo e →
      (c.step e now).2.header = h ∧ (c.step e now).2.LetsGo (c.step e now).1 := by
    rintro e now c ⟨rfl, letsGo⟩
    exact ⟨Running.header_of_origin (c.step_stride e now).origin,
      StoreCall.letsGo_step accepted letsGo⟩
  have take : ∀ (e : Endpoint) (now : Moment) (c : StoreCall) (a : Arrival),
      a ∈ stream ∨ a = .late → c.header = h ∧ c.LetsGo e →
        (c.take e now a).2.header = h ∧ (c.take e now a).2.LetsGo (c.take e now a).1 := by
    rintro e now c a - ⟨rfl, letsGo⟩
    exact ⟨Running.header_of_origin (c.take_stride e now a).origin, StoreCall.letsGo_take letsGo a⟩
  have start : (StoreCall.begin h deadline).header = h ∧ (StoreCall.begin h deadline).LetsGo e :=
    ⟨rfl, nofun⟩
  obtain ⟨c, finished, rfl, letsGo⟩ := storeFrom_induction stream step take start s
  exact letsGo _ finished

/-- Nothing that is found in the mount keeps the caller in the row. -/
theorem not_owner_delete (e : Endpoint) (accepted : Mount.accepts name = true) (client : ClientId)
    (deadline : Deadline) (s : Schedule) :
    (e.delete name client deadline s).1.locks.ownerOf name ≠ some client := by
  have step : ∀ (e : Endpoint) (now : Moment) (c : DeleteCall),
      (c.name = name ∧ c.client = client) ∧ c.LetsGo e →
        ((c.step e now).2.name = name ∧ (c.step e now).2.client = client) ∧
          (c.step e now).2.LetsGo (c.step e now).1 := by
    rintro e now c ⟨⟨rfl, rfl⟩, letsGo⟩
    have subject := (c.step_stride e now).subject?
    exact ⟨Prod.mk.inj (Option.some.inj subject), DeleteCall.letsGo_step accepted letsGo⟩
  have start : ((DeleteCall.begin name client deadline).name = name ∧
      (DeleteCall.begin name client deadline).client = client) ∧
        (DeleteCall.begin name client deadline).LetsGo e := ⟨⟨rfl, rfl⟩, nofun⟩
  obtain ⟨c, finished, ⟨rfl, rfl⟩, letsGo⟩ := delete_induction step start s
  exact letsGo _ finished

/-- A call that expires in the queue lets go of its lock. -/
theorem abandonExpired_eq (e : Endpoint) (accepted : Mount.accepts name = true)
    (client : ClientId) :
    e.abandonExpired name client = e.disposeLock name client (e.fileExists name) := by
  cases owner : e.locks.isOwner name client with
  | false =>
      have first : (ExpiryCall.begin name client).step e
          = (e, (ExpiryCall.begin name client).goTo .finished) := if_neg (by
        show ¬ (Mount.accepts name && e.locks.isOwner name client) = true
        rw [accepted, owner]
        exact Bool.false_ne_true)
      rw [abandonExpired, first, disposeLock_of_not_owner owner]
      rfl
  | true =>
      have first : (ExpiryCall.begin name client).step e
          = (e, (ExpiryCall.begin name client).goTo .owner) := if_pos (by
        show (Mount.accepts name && e.locks.isOwner name client) = true
        rw [accepted, owner]
        rfl)
      rw [abandonExpired, first]
      rfl

/-! ### Owners that were owners before

Read backwards, strides give away nothing: who is an owner afterwards has been one all the time.
-/

/-- What a call does by strides makes nobody an owner. -/
theorem ownerOf_of_goes {x y : Endpoint × Running} (h : Goes x y) {f : String} {owner : ClientId}
    (owned : y.1.locks.ownerOf f = some owner) : x.1.locks.ownerOf f = some owner := by
  induction h with
  | refl => exact owned
  | tail _ stride ih =>
      rcases stride.locks.ownerOf f with same | ⟨c, -, -, -, -, free⟩
      · exact ih (same ▸ owned)
      · exact nomatch free.symm.trans owned

theorem ownerOf_of_call {e e' : Endpoint} {r : Running} (h : ∃ r', Goes (e, r) (e', r'))
    {f : String} {owner : ClientId} (owned : e'.locks.ownerOf f = some owner) :
    e.locks.ownerOf f = some owner := by
  obtain ⟨r', goes⟩ := h
  exact ownerOf_of_goes goes owned

/-- **Only a call for a lock makes anybody an owner.** -/
theorem ownerOf_of_dispatch {e : Endpoint} {deadline : Deadline} {s : Schedule}
    {stream : List Arrival} {request : Request}
    (other : ∀ name client, request ≠ .requestLock name client) {f : String} {owner : ClientId}
    (owned : (e.dispatch deadline s stream request).endpoint.locks.ownerOf f = some owner) :
    e.locks.ownerOf f = some owner := by
  cases request with
  | requestLock name client => exact absurd rfl (other name client)
  | store header => exact ownerOf_of_call (e.storeFrom_goes header deadline s stream) owned
  | fetch name mine =>
      exact ownerOf_of_call (e.fetch_goes name mine deadline s (fun _ => readLimit)
        fun _ => .delivered) owned
  | delete name client => exact ownerOf_of_call (e.delete_goes name client deadline s) owned
  | checksum name client sum =>
      exact ownerOf_of_call (e.probe_goes name client sum deadline s.arrival) owned
  | list => exact owned
  | stat name => exact owned
  | compareMtime name mtime => exact owned
  | changeNotification maxWait =>
      have same : (e.manifest s.arrival.instant maxWait.toNat deadline).1.locks = e.locks :=
        (e.locks_manifest ..).1
      rw [← same]
      exact owned

theorem ownerOf_of_expire {e : Endpoint} {stream : List Arrival} {request : Request} {f : String}
    {owner : ClientId} (owned : (e.expire stream request).endpoint.locks.ownerOf f = some owner) :
    e.locks.ownerOf f = some owner := by
  cases request with
  | store header => exact ownerOf_of_call (e.abandonExpired_goes header.name header.client) owned
  | delete name client => exact ownerOf_of_call (e.abandonExpired_goes name client) owned
  | _ => exact owned

end Endpoint

end MountSync
