/-
Every step of a call is a stride.

One lemma for each function that a step is made of, and from them one for each kind of call.
-/
import MountSync.Proofs.Traffic.Stride

namespace MountSync

/-! ### Stores

A store relies on nothing before `checkCaller`, and a failure from then on leads to `disposing`, so
the only steps that touch a lock are `conclude` and `disposeLock`.  The steps in between touch the
mount, and there the temporary file alone, until `installContent` gives it the name of the file.
-/

namespace StoreCall

variable (e : Endpoint) (now : Moment) {c : StoreCall}

/-- The first step may find the caller to be the owner, and then the call relies on the lock. -/
theorem checkCaller_stride (hp : c.phase = .arrived) :
    Stride e (.store c) e (.store (c.checkCaller e now)) := by
  obtain ⟨header, deadline, phase⟩ := c
  cases hp
  unfold checkCaller
  split
  · exact .quiet rfl rfl rfl rfl rfl rfl
  · split
    · exact .quiet rfl rfl rfl rfl rfl rfl
    · split
      · rename_i h
        exact .checked rfl rfl ⟨_, _, rfl, LockTable.isOwner_iff.1 h⟩ rfl rfl
      · exact .quiet rfl rfl rfl rfl rfl rfl

theorem decideCopy_stride (hp : c.phase = .owner) :
    Stride e (.store c) (c.decideCopy e now).1 (.store (c.decideCopy e now).2) := by
  obtain ⟨header, deadline, phase⟩ := c
  cases hp
  unfold decideCopy
  split
  · exact .quiet rfl rfl rfl rfl rfl rfl
  · split
    · exact .quiet rfl rfl rfl rfl rfl rfl
    · exact .quiet rfl rfl rfl rfl rfl rfl
    · split
      · exact .quiet rfl rfl rfl rfl rfl rfl
      · exact .quiet rfl rfl rfl rfl rfl rfl

/-- The temporary file is new, so making it hides nothing. -/
theorem openPartial_stride (hp : c.phase = .opening) :
    Stride e (.store c) (c.openPartial e now).1 (.store (c.openPartial e now).2) := by
  obtain ⟨header, deadline, phase⟩ := c
  cases hp
  unfold openPartial Mount.createPartial
  cases e.mount.enter with
  | error fault => exact .quiet rfl rfl rfl rfl rfl rfl
  | ok entered => exact .ofMount rfl rfl (.opened now.calendar rfl rfl) rfl rfl

/-- What has arrived is thrown away under its temporary name; the lock is kept for `givingUp`. -/
theorem reject_stride {intake : Intake} (failure : Failure)
    (ht : c.phase.temporary? = some intake.temporary) (hr : c.phase.relies = true) :
    Stride e (.store c) (c.reject e intake failure).1 (.store (c.reject e intake failure).2) :=
  .ofMount rfl rfl (.discarded ht rfl) hr rfl

/-- The step that writes: the temporary file takes the place of what had the name. -/
theorem installContent_stride {intake : Intake} (hp : c.phase = .complete intake) :
    Stride e (.store c) (c.installContent e intake).1 (.store (c.installContent e intake).2) := by
  have hrej : ∀ failure, Stride e (.store c) (c.reject e intake failure).1
      (.store (c.reject e intake failure).2) := fun failure =>
    reject_stride e failure (by rw [hp]; rfl) (by rw [hp]; rfl)
  obtain ⟨header, deadline, phase⟩ := c
  cases hp
  unfold installContent Mount.install
  cases hg : e.mount.get? intake.temporary with
  | none => exact hrej _
  | some node =>
      cases node with
      | file f =>
          by_cases hd : e.mount.get? (.text header.name) = some .directory
          · simp only [name, hd, if_true]
            exact hrej _
          · simp only [name, hd, if_false]
            exact .ofMount rfl rfl (.installed _ _ rfl rfl rfl rfl hg) rfl rfl
      | directory => exact hrej _
      | link target => exact hrej _
      | jump target => exact hrej _
      | special content => exact hrej _

/-- The lock goes only with the result, and only if the row still names the caller. -/
theorem conclude_stride {received : Nat} (hp : c.phase = .installed received) :
    Stride e (.store c) (c.conclude e received).1 (.store (c.conclude e received).2) := by
  obtain ⟨header, deadline, phase⟩ := c
  cases hp
  unfold conclude
  dsimp only
  split
  · exact .ofLocks rfl .kept rfl rfl rfl rfl
  · rename_i locks hl
    refine .ofLocks rfl ?_ rfl rfl rfl rfl
    rw [show locks = (e.locks.release header.name header.client).1
      from (congrArg Prod.fst hl).symm]
    exact .released rfl rfl rfl

/-- On the way out the lock is given back if there is a file, and given up if there is none. -/
theorem disposeLock_stride {failure : Failure} {present : Bool}
    (hp : c.phase = .disposing failure present) :
    Stride e (.store c) (e.disposeLock c.name c.client present) (.store (c.fail failure)) := by
  obtain ⟨header, deadline, phase⟩ := c
  cases hp
  cases present
  · exact .ofLocks rfl (.deleted rfl rfl rfl) rfl rfl rfl rfl
  · exact .ofLocks rfl (.released rfl rfl rfl) rfl rfl rfl rfl

theorem step_stride (c : StoreCall) :
    Stride e (.store c) (c.step e now).1 (.store (c.step e now).2) := by
  unfold step
  cases hp : c.phase with
  | arrived => exact checkCaller_stride e now hp
  | expired =>
      obtain ⟨header, deadline, phase⟩ := c
      cases hp
      dsimp only
      split
      · rename_i h
        exact .checked rfl rfl ⟨_, _, rfl, LockTable.isOwner_iff.1 h⟩ rfl rfl
      · exact .quiet rfl rfl rfl rfl rfl rfl
  | owner => exact decideCopy_stride e now hp
  | opening => exact openPartial_stride e now hp
  | receiving intake => exact .refl e _
  | complete intake => exact installContent_stride e hp
  | installed received => exact conclude_stride e hp
  | givingUp failure =>
      obtain ⟨header, deadline, phase⟩ := c
      cases hp
      exact .quiet rfl rfl rfl rfl rfl rfl
  | disposing failure present => exact disposeLock_stride e hp
  | finished result => exact .refl e _

/-- Whatever the stream brings, nothing but the temporary file is affected. -/
theorem take_stride (c : StoreCall) (a : Arrival) :
    Stride e (.store c) (c.take e now a).1 (.store (c.take e now a).2) := by
  unfold take
  cases hp : c.phase with
  | receiving intake =>
      have hrej : ∀ failure, Stride e (.store c) (c.reject e intake failure).1
          (.store (c.reject e intake failure).2) := fun failure =>
        reject_stride e failure (by rw [hp]; rfl) (by rw [hp]; rfl)
      obtain ⟨header, deadline, phase⟩ := c
      cases hp
      cases a with
      | chunk piece =>
          dsimp only
          split
          · exact hrej _
          · exact .quiet rfl rfl rfl rfl rfl rfl
      | ended =>
          dsimp only
          split
          · exact hrej _
          · exact .quiet rfl rfl rfl rfl rfl rfl
      | refused failure => exact hrej _
      | broken failure => exact hrej _
      | late => exact hrej _
  | _ => exact .refl e _

end StoreCall

/-! ### Deletes

A delete has no temporary file.  Its one step that writes is `remove`, and a step that finds
nothing to remove gives the lock up at once.
-/

namespace DeleteCall

variable (e : Endpoint) {c : DeleteCall}

/-- The deadline is looked at later, so an expired call of the owner relies on its lock as well. -/
theorem checkCaller_stride (hp : c.phase = .arrived) :
    Stride e (.delete c) e (.delete (c.checkCaller e)) := by
  obtain ⟨name, client, deadline, phase⟩ := c
  cases hp
  unfold checkCaller
  split
  · exact .quiet rfl rfl rfl rfl rfl rfl
  · split
    · rename_i h
      exact .checked rfl rfl ⟨_, _, rfl, LockTable.isOwner_iff.1 h⟩ rfl rfl
    · exact .quiet rfl rfl rfl rfl rfl rfl

/-- A directory stays where it is, and everything else that can have the name goes. -/
theorem remove_stride (hp : c.phase = .present) :
    Stride e (.delete c) (c.remove e).1 (.delete (c.remove e).2) := by
  obtain ⟨name, client, deadline, phase⟩ := c
  cases hp
  unfold remove Mount.removeFile
  cases e.mount.get? (.text name) with
  | none => exact .quiet rfl rfl rfl rfl rfl rfl
  | some node =>
      cases node with
      | directory => exact .quiet rfl rfl rfl rfl rfl rfl
      | file f => exact .ofMount rfl rfl (.removed rfl rfl rfl rfl) rfl rfl
      | link target => exact .ofMount rfl rfl (.removed rfl rfl rfl rfl) rfl rfl
      | jump target => exact .ofMount rfl rfl (.removed rfl rfl rfl rfl) rfl rfl
      | special content => exact .ofMount rfl rfl (.removed rfl rfl rfl rfl) rfl rfl

theorem conclude_stride (hp : c.phase = .removed) :
    Stride e (.delete c) (c.conclude e).1 (.delete (c.conclude e).2) := by
  obtain ⟨name, client, deadline, phase⟩ := c
  cases hp
  unfold conclude
  dsimp only
  split
  · exact .ofLocks rfl .kept rfl rfl rfl rfl
  · rename_i locks hl
    refine .ofLocks rfl ?_ rfl rfl rfl rfl
    rw [show locks = (e.locks.delete name client).1 from (congrArg Prod.fst hl).symm]
    exact .deleted rfl rfl rfl

theorem disposeLock_stride (failure : Failure) (present : Bool) (hr : c.phase.relies = true) :
    Stride e (.delete c) (e.disposeLock c.name c.client present) (.delete (c.fail failure)) := by
  cases present
  · exact .ofLocks rfl (.deleted rfl hr rfl) rfl rfl hr rfl
  · exact .ofLocks rfl (.released rfl hr rfl) rfl rfl hr rfl

theorem step_stride (now : Moment) (c : DeleteCall) :
    Stride e (.delete c) (c.step e now).1 (.delete (c.step e now).2) := by
  unfold step
  cases hp : c.phase with
  | arrived => exact checkCaller_stride e hp
  | owner =>
      obtain ⟨name, client, deadline, phase⟩ := c
      cases hp
      dsimp only
      split
      · exact .quiet rfl rfl rfl rfl rfl rfl
      · split
        · exact .quiet rfl rfl rfl rfl rfl rfl
        · exact .quiet rfl rfl rfl rfl rfl rfl
  | present => exact remove_stride e hp
  | absent => exact disposeLock_stride e _ false (by rw [hp]; rfl)
  | removed => exact conclude_stride e hp
  | refused fault =>
      obtain ⟨name, client, deadline, phase⟩ := c
      cases hp
      exact .quiet rfl rfl rfl rfl rfl rfl
  | disposing failure present => exact disposeLock_stride e _ _ (by rw [hp]; rfl)
  | finished result => exact .refl e _

end DeleteCall

/-! ### Comparisons, and calls that came too late

Both may give back a lock that another call of the same client still relies on.  That is why a
stride that takes a lock away is described by the client of the call and not by the call that had
asked for the lock.
-/

/-- Copies that are the same are no reason to hold the lock, so a probe gives back its caller's. -/
theorem ProbeCall.step_stride (e : Endpoint) (now : Moment) (c : ProbeCall) :
    Stride e (.probe c) (c.step e now).1 (.probe (c.step e now).2) := by
  obtain ⟨name, client, checksum, deadline, phase⟩ := c
  unfold step
  cases phase with
  | arrived =>
      dsimp only
      split
      · exact .quiet rfl rfl rfl rfl rfl rfl
      · split
        · exact .quiet rfl rfl rfl rfl rfl rfl
        · exact .quiet rfl rfl rfl rfl rfl rfl
  | same =>
      dsimp only
      split
      · rename_i h
        exact .checked rfl rfl ⟨_, _, rfl, LockTable.isOwner_iff.1 h⟩ rfl rfl
      · exact .quiet rfl rfl rfl rfl rfl rfl
  | owner => exact .ofLocks rfl (.released rfl rfl rfl) rfl rfl rfl rfl
  | finished result => exact .refl e _

/-- A call that came too late looks for the owner first, as the others do. -/
theorem ExpiryCall.step_stride (e : Endpoint) (c : ExpiryCall) :
    Stride e (.expiry c) (c.step e).1 (.expiry (c.step e).2) := by
  obtain ⟨name, client, phase⟩ := c
  unfold step
  cases phase with
  | arrived =>
      dsimp only
      split
      · rename_i h
        have ho := LockTable.isOwner_iff.1 (Bool.and_eq_true_iff.1 h).2
        exact .checked rfl rfl ⟨_, _, rfl, ho⟩ rfl rfl
      · exact .quiet rfl rfl rfl rfl rfl rfl
  | owner => exact .quiet rfl rfl rfl rfl rfl rfl
  | disposing present =>
      cases present
      · exact .ofLocks rfl (.deleted rfl rfl rfl) rfl rfl rfl rfl
      · exact .ofLocks rfl (.released rfl rfl rfl) rfl rfl rfl rfl
  | finished => exact .refl e _

/-! ### Fetches

No step of a fetch is of interest to another call: it has a file open for itself, and counts what
it does.
-/

namespace FetchCall

variable {e e' : Endpoint} {c c' : FetchCall}

/-- A fetch has nothing to do with locks and changes no mount. -/
theorem stride (going : c.result? = none) (origin : c'.goTo .arrived = c.goTo .arrived)
    (locks : e'.locks = e.locks) (mount : e'.mount = e.mount) :
    Stride e (.fetch c) e' (.fetch c') :=
  .quiet (congrArg Running.fetch origin) locks mount rfl rfl (congrArg Option.isSome going)

/-- Every step of a fetch keeps the request, which is all that a stride asks of it here. -/
theorem lookUp_origin (e : Endpoint) (c : FetchCall) :
    (c.lookUp e).goTo .arrived = c.goTo .arrived := by
  unfold lookUp
  split <;> rfl

theorem openFile_origin (e : Endpoint) (c : FetchCall) (record : FileRecord) :
    (c.openFile e record).goTo .arrived = c.goTo .arrived := by
  unfold openFile
  split <;> rfl

theorem decideCopy_stride (going : c.result? = none) (now : Moment) (record : FileRecord) :
    Stride e (.fetch c) (c.decideCopy e now record).1 (.fetch (c.decideCopy e now record).2) := by
  unfold decideCopy
  dsimp only
  split
  · exact stride going rfl rfl rfl
  · split <;> exact stride going rfl rfl rfl

theorem close_stride (going : c.result? = none) (s : Sending) :
    Stride e (.fetch c) (c.close e s).1 (.fetch (c.close e s).2) := by
  unfold close
  split
  · exact stride going rfl rfl rfl
  · split <;> exact stride going rfl rfl rfl

theorem read_stride (going : c.result? = none) (now : Moment) (limit : Nat) (s : Sending) :
    Stride e (.fetch c) (c.read e now limit s).1 (.fetch (c.read e now limit s).2) := by
  unfold read
  split
  · exact stride going rfl rfl rfl
  · dsimp only
    split
    · exact close_stride going _
    · exact stride going rfl rfl rfl

theorem step_stride (e : Endpoint) (now : Moment) (limit : Nat) (c : FetchCall) :
    Stride e (.fetch c) (c.step e now limit).1 (.fetch (c.step e now limit).2) := by
  unfold step
  cases hp : c.phase with
  | arrived => exact stride (by simp [result?, hp]) (lookUp_origin e c) rfl rfl
  | found record => exact decideCopy_stride (by simp [result?, hp]) now record
  | opening record => exact stride (by simp [result?, hp]) (openFile_origin e c record) rfl rfl
  | reading s => exact read_stride (by simp [result?, hp]) now _ s
  | offering message next => exact .refl e _
  | finished result => exact .refl e _

/-- Nor does it matter to the others how a message is received. -/
theorem handOver_stride (e : Endpoint) (c : FetchCall) (outcome : Handover) :
    Stride e (.fetch c) (c.handOver e outcome).1 (.fetch (c.handOver e outcome).2) := by
  unfold handOver
  cases hp : c.phase with
  | offering message next =>
      have going : c.result? = none := by simp [result?, hp]
      dsimp only
      split <;> exact stride going rfl rfl rfl
  | _ => exact .refl e _

end FetchCall

end MountSync
