/-
What a call makes of the mount.

Whatever a call asks for, and whatever comes behind it, one of three things is true of the mount
afterwards: it is the same; or one entry has become a file that keeps its content and was written
when the call was; or one entry is gone.  Only a store does the second, and only a delete the third.

This is all that others need to know of a call, so it is said of a whole server and of whatever
messages it is sent.  Of the locks they need to know even less: a call leaves those on all files
alone but its own.
-/
import MountSync.Proofs.Endpoint.Fetch
import MountSync.Proofs.Endpoint.Store
import MountSync.Proofs.Traffic.Protection
import MountSync.Server.Basic

namespace MountSync

/-- What one call can make of a mount. -/
inductive Mount.Turns (m : Mount) (now : UnixTime) (m' : Mount) : Prop
  | same : m.SameAs m' → Turns m now m'
  | stored {name : String} {f : File} : m.get? (.text name) ≠ some .directory → f.IsPlain →
      f.modified = .atSecond now → m.Puts name (some (.file f)) m' → Turns m now m'
  | removed {name : String} : m.get? (.text name) ≠ some .directory → m.Puts name none m' →
      Turns m now m'

theorem Mount.Turns.of_eq {m m' : Mount} {now : UnixTime} (h : m' = m) : m.Turns now m' :=
  .same (.of_eq h)

/-! ### Removing a file

A delete removes in its third step or not at all, so the steps before it and behind it are told
apart from that one.
-/

theorem Mount.puts_of_removeFile {m m' : Mount} {name : String} (h : m.removeFile name = .ok m') :
    m.get? (.text name) ≠ some .directory ∧ m.Puts name none m' := by
  unfold removeFile at h
  split at h
  · exact nomatch h
  · exact nomatch h
  · rename_i node notDirectory found
    cases h
    refine ⟨?_, rfl, m.get?_drop_self _, fun p hp => m.tree.get?_drop_ne hp⟩
    intro directory
    exact notDirectory (Option.some.inj (found.symm.trans directory))

namespace DeleteCall

variable {e : Endpoint} {now : Moment} {c : DeleteCall}

/-- Whether a delete will not remove anything any more. -/
def isPast (c : DeleteCall) : Prop :=
  match c.phase with
  | .arrived | .owner | .present => False
  | _ => True

/-- A step removes the file, or leaves the mount alone. -/
theorem step_mount (e : Endpoint) (now : Moment) (c : DeleteCall) :
    (c.step e now).1.mount = e.mount ∨
      c.phase = .present ∧ e.mount.removeFile c.name = .ok (c.step e now).1.mount := by
  unfold step
  cases phase : c.phase with
  | arrived => exact Or.inl rfl
  | owner =>
      dsimp only
      split
      · exact Or.inl rfl
      · split <;> exact Or.inl rfl
  | present =>
      dsimp only
      unfold remove
      cases removed : e.mount.removeFile c.name with
      | error fault => exact Or.inl rfl
      | ok mount => exact Or.inr ⟨rfl, rfl⟩
  | absent => exact Or.inl rfl
  | removed =>
      dsimp only
      unfold conclude
      split <;> exact Or.inl rfl
  | refused fault => exact Or.inl rfl
  | disposing failure present => exact Or.inl rfl
  | finished result => exact Or.inl rfl

theorem isPast_step_of_present (phase : c.phase = .present) : (c.step e now).2.isPast := by
  unfold step
  rw [phase]
  dsimp only
  unfold remove
  split <;> trivial

theorem isPast_step (past : c.isPast) : (c.step e now).2.isPast := by
  unfold isPast at past
  unfold step
  split
  · rename_i phase
    rw [phase] at past
    exact past.elim
  · rename_i phase
    rw [phase] at past
    exact past.elim
  · rename_i phase
    rw [phase] at past
    exact past.elim
  · trivial
  · unfold conclude
    split <;> trivial
  · trivial
  · trivial
  · rename_i phase
    unfold isPast
    rw [phase]
    trivial

theorem mount_step_of_isPast (past : c.isPast) : (c.step e now).1.mount = e.mount := by
  rcases c.step_mount e now with same | ⟨phase, -⟩
  · exact same
  · unfold isPast at past
    rw [phase] at past
    exact past.elim

/-- The first look decides whether the caller may go on at all. -/
theorem phase_checkCaller (e : Endpoint) (c : DeleteCall) :
    (c.checkCaller e).phase = .owner ∨ (c.checkCaller e).isPast := by
  unfold checkCaller
  split
  · exact Or.inr trivial
  · split
    · exact Or.inl rfl
    · exact Or.inr trivial

/-- By the third step a file is either removed or stays. -/
theorem phase_second (h : c.phase = .owner ∨ c.isPast) :
    (c.step e now).1.mount = e.mount ∧
      ((c.step e now).2.phase = .present ∨ (c.step e now).2.isPast) := by
  rcases h with owner | past
  · unfold step
    rw [owner]
    dsimp only
    split
    · exact ⟨rfl, Or.inr trivial⟩
    · split
      · exact ⟨rfl, Or.inr trivial⟩
      · exact ⟨rfl, Or.inl rfl⟩
  · exact ⟨mount_step_of_isPast past, Or.inr (isPast_step past)⟩

end DeleteCall

/-! ### What calls make of the mount -/

/-- No step of a fetch changes the mount or the locks. -/
theorem Stride.of_fetch {e e' : Endpoint} {c : FetchCall} {r' : Running}
    (h : Stride e (.fetch c) e' r') :
    ∃ c', r' = .fetch c' ∧ e'.mount = e.mount ∧ e'.locks = e.locks := by
  obtain ⟨origin, locks, mount, -, -, -⟩ := h
  obtain ⟨c', rfl⟩ : ∃ c', r' = .fetch c' := by
    cases r' with
    | fetch c' => exact ⟨c', rfl⟩
    | _ => exact nomatch origin
  refine ⟨c', rfl, ?_, ?_⟩
  · generalize e'.mount = m at mount
    cases mount with
    | kept temporary => rfl
    | opened now before after => exact nomatch after
    | discarded before after => exact nomatch before
    | installed content modified before after writes subject held => exact nomatch before
    | removed before after writes subject => exact nomatch subject
  · generalize e'.locks = t at locks
    cases locks with
    | kept => rfl
    | released subject relied ended => exact nomatch subject
    | deleted subject relied ended => exact nomatch subject
namespace Endpoint

variable {e : Endpoint} {deadline : Deadline} {s : Schedule}

/-- A delete takes five steps, and only the third one removes a file. -/
theorem mount_delete (e : Endpoint) (name : String) (client : ClientId) (deadline : Deadline)
    (s : Schedule) :
    (e.delete name client deadline s).1.mount = e.mount ∨
      e.mount.removeFile name = .ok (e.delete name client deadline s).1.mount := by
  let c := DeleteCall.begin name client deadline
  let r₁ := c.step e s.arrival
  let r₂ := r₁.2.step r₁.1 s.decision
  let r₃ := r₂.2.step r₂.1 s.transfer
  let r₄ := r₃.2.step r₃.1 s.transfer
  obtain ⟨second, phase⟩ : r₂.1.mount = e.mount ∧ (r₂.2.phase = .present ∨ r₂.2.isPast) :=
    DeleteCall.phase_second (DeleteCall.phase_checkCaller e c)
  have past : r₃.2.isPast := by
    rcases phase with present | past
    · exact DeleteCall.isPast_step_of_present present
    · exact DeleteCall.isPast_step past
  have fourth : r₄.1.mount = r₃.1.mount := DeleteCall.mount_step_of_isPast past
  have fifth : (r₄.2.step r₄.1 s.transfer).1.mount = r₄.1.mount :=
    DeleteCall.mount_step_of_isPast (DeleteCall.isPast_step past)
  have last : (e.delete name client deadline s).1.mount = r₃.1.mount := fifth.trans fourth
  have own : r₂.2.name = name := by
    have subject := (r₁.2.step_stride r₁.1 s.decision).subject?.trans
      (c.step_stride e s.arrival).subject?
    exact (Prod.mk.inj (Option.some.inj subject)).1
  rw [last]
  rcases r₂.2.step_mount r₂.1 s.transfer with same | ⟨-, removed⟩
  · exact Or.inl (same.trans second)
  · rw [second, own] at removed
    exact Or.inr removed

theorem turns_delete (e : Endpoint) (name : String) (client : ClientId) (deadline : Deadline)
    (s : Schedule) (now : UnixTime) :
    e.mount.Turns now (e.delete name client deadline s).1.mount := by
  rcases e.mount_delete name client deadline s with same | removed
  · exact .of_eq same
  · obtain ⟨file, puts⟩ := Mount.puts_of_removeFile removed
    exact .removed file puts

/-- A store puts its file in place, or leaves the mount as it was. -/
theorem mount_storeFrom (e : Endpoint) (h : StoreHeader) (deadline : Deadline) (s : Schedule)
    (stream : List Arrival) :
    e.mount.SameAs (e.storeFrom h deadline s stream).1.mount ∨
      Mount.accepts h.name = true ∧ ∃ content, content.length = h.size.toNat ∧
        e.mount.Placed s.transfer.calendar h.name content
          (e.storeFrom h deadline s stream).1.mount := by
  by_cases takes : StoreCall.Takes e h deadline s
  · obtain ⟨e', result, rest, stored, ends⟩ := storeFrom_of_takes takes stream
    rw [stored]
    generalize Arrival.contentOf? stream = brought at ends
    cases ends with
    | stored done => exact Or.inr ⟨takes.accepted, _, done.fulfilled.length, done.placed⟩
    | unstored _ undone => exact Or.inl undone.mount
  · obtain ⟨e', failure, rest, stored, mount⟩ := storeFrom_of_not_takes takes stream
    rw [stored]
    exact Or.inl (.of_eq mount)

theorem turns_storeFrom (e : Endpoint) (h : StoreHeader) (deadline : Deadline) (s : Schedule)
    (stream : List Arrival) :
    e.mount.Turns s.transfer.calendar (e.storeFrom h deadline s stream).1.mount := by
  rcases e.mount_storeFrom h deadline s stream with same | ⟨-, content, length, placed⟩
  · exact .same same
  · obtain ⟨f, puts, rfl, modified, kept⟩ := placed.entry
    refine .stored placed.free ⟨kept, ?_⟩ modified puts
    rw [length]
    exact h.size.toNat_lt

theorem mount_probe (e : Endpoint) (name : String) (client : ClientId) (sum : UInt32)
    (deadline : Deadline) (now : Moment) :
    (e.probe name client sum deadline now).1.mount = e.mount := by
  have step : ∀ (e : Endpoint) (c : ProbeCall), (c.step e now).1.mount = e.mount := by
    intro e c
    unfold ProbeCall.step
    split
    · split
      · rfl
      · split <;> rfl
    · split <;> rfl
    · rfl
    · rfl
  let r₁ := (ProbeCall.begin name client sum deadline).step e now
  let r₂ := r₁.2.step r₁.1 now
  exact (step r₂.1 r₂.2).trans ((step r₁.1 r₁.2).trans (step e _))

theorem mount_abandonExpired (e : Endpoint) (name : String) (client : ClientId) :
    (e.abandonExpired name client).mount = e.mount := by
  have step : ∀ (e : Endpoint) (c : ExpiryCall), (c.step e).1.mount = e.mount := by
    intro e c
    unfold ExpiryCall.step
    split
    · split <;> rfl
    · rfl
    · rfl
    · rfl
  let r₁ := (ExpiryCall.begin name client).step e
  let r₂ := r₁.2.step r₁.1
  exact (step r₂.1 r₂.2).trans ((step r₁.1 r₁.2).trans (step e _))

/-- A fetch leaves the mount and the locks alone, whoever reads what it sends. -/
theorem still_fetch (e : Endpoint) (name : String) (mine : Option FileVersion)
    (deadline : Deadline) (s : Schedule) (limits : Nat → Nat) (reader : Nat → Handover) :
    (e.fetch name mine deadline s limits reader).1.mount = e.mount ∧
      (e.fetch name mine deadline s limits reader).1.locks = e.locks := by
  have still : ∀ {x y : Endpoint × Running}, Goes x y → (∃ c, x.2 = .fetch c) →
      y.1.mount = x.1.mount ∧ y.1.locks = x.1.locks ∧ ∃ c, y.2 = .fetch c := by
    rintro x y goes fetch
    induction goes with
    | refl => exact ⟨rfl, rfl, fetch⟩
    | tail _ stride ih =>
        obtain ⟨mount, locks, c, same⟩ := ih
        rw [same] at stride
        obtain ⟨c', same', mount', locks'⟩ := stride.of_fetch
        exact ⟨mount'.trans mount, locks'.trans locks, c', same'⟩
  obtain ⟨r, goes⟩ := e.fetch_goes name mine deadline s limits reader
  obtain ⟨mount, locks, -⟩ := still goes ⟨_, rfl⟩
  exact ⟨mount, locks⟩

/-- Whatever is asked for, the mount is the same afterwards or turned in one entry. -/
theorem turns_dispatch (e : Endpoint) (deadline : Deadline) (s : Schedule) (stream : List Arrival)
    (request : Request) :
    e.mount.Turns s.transfer.calendar (e.dispatch deadline s stream request).endpoint.mount := by
  cases request with
  | requestLock name client => exact .of_eq (Traffic.mount_requestLock ..)
  | store header => exact e.turns_storeFrom header deadline s stream
  | fetch name mine =>
      obtain ⟨e', result, messages, fetched, mount, -, -⟩ := e.fetches name mine deadline s
      refine .of_eq ?_
      show (e.fetch name mine deadline s (fun _ => readLimit) (fun _ => .delivered)).1.mount = _
      rw [fetched]
      exact mount
  | delete name client => exact e.turns_delete name client deadline s _
  | list => exact .of_eq rfl
  | stat name => exact .of_eq rfl
  | checksum name client sum => exact .of_eq (e.mount_probe ..)
  | compareMtime name mtime => exact .of_eq rfl
  | changeNotification maxWait => exact .of_eq (e.locks_manifest ..).2

theorem mount_expire (e : Endpoint) (stream : List Arrival) (request : Request) :
    (e.expire stream request).endpoint.mount = e.mount := by
  cases request with
  | store header => exact e.mount_abandonExpired ..
  | delete name client => exact e.mount_abandonExpired ..
  | _ => rfl

end Endpoint

/-! ### The locks on other files

What a call does to locks it does by strides, and all of them are of the call's own file.
-/

/-- The file that a request is about. -/
def Request.file? : Request → Option String
  | requestLock name _ | fetch name _ | delete name _ | stat name | checksum name _ _
  | compareMtime name _ => some name
  | store header => some header.name
  | list | changeNotification _ => none

section

variable {f : String} {e e' : Endpoint} {r r' : Running}

/-- A call gives away no lock but that on its own file. -/
theorem Goes.ownerOf {x y : Endpoint × Running} (h : Goes x y)
    (other : ∀ c, x.2.subject? ≠ some (f, c)) : y.1.locks.ownerOf f = x.1.locks.ownerOf f := by
  have key : y.1.locks.ownerOf f = x.1.locks.ownerOf f ∧ y.2.subject? = x.2.subject? := by
    induction h with
    | refl => exact ⟨rfl, rfl⟩
    | tail _ stride ih =>
        obtain ⟨owner, subject⟩ := ih
        refine ⟨?_, stride.subject?.trans subject⟩
        rcases stride.locks.ownerOf f with same | ⟨c, own, -⟩
        · exact same.trans owner
        · exact absurd (subject.symm.trans own) (other c)
  exact key.1

theorem ownerOf_of_call {owner : ClientId} {name : String} (h : ∃ r', Goes (e, r) (e', r'))
    (subject : r.subject? = some (name, owner)) (other : name ≠ f) :
    e'.locks.ownerOf f = e.locks.ownerOf f := by
  obtain ⟨r', goes⟩ := h
  refine goes.ownerOf fun c own => ?_
  obtain ⟨same, -⟩ := Prod.mk.inj (Option.some.inj (subject.symm.trans own))
  exact other same

end

/-- **A call leaves the locks on all files alone but its own.** -/
theorem Endpoint.ownerOf_dispatch (e : Endpoint) (deadline : Deadline) (s : Schedule)
    (stream : List Arrival) {request : Request} {f : String} (other : request.file? ≠ some f) :
    (e.dispatch deadline s stream request).endpoint.locks.ownerOf f = e.locks.ownerOf f := by
  have different : ∀ {name}, request.file? = some name → name ≠ f :=
    fun is same => other (same ▸ is)
  cases request with
  | requestLock name client =>
      rcases Traffic.ownerOf_requestLock e name client deadline s.arrival.instant f with
        same | ⟨is, -⟩
      · exact same
      · exact absurd is.symm (different rfl)
  | store header => exact ownerOf_of_call (e.storeFrom_goes ..) rfl (different rfl)
  | fetch name mine =>
      obtain ⟨e', result, messages, fetched, -, locks, -⟩ := e.fetches name mine deadline s
      show (e.fetch name mine deadline s (fun _ => readLimit)
        (fun _ => .delivered)).1.locks.ownerOf f = _
      rw [fetched]
      exact congrArg (LockTable.ownerOf · f) locks
  | delete name client => exact ownerOf_of_call (e.delete_goes ..) rfl (different rfl)
  | checksum name client sum => exact ownerOf_of_call (e.probe_goes ..) rfl (different rfl)
  | list => rfl
  | stat name => rfl
  | compareMtime name mtime => rfl
  | changeNotification maxWait =>
      exact congrArg (LockTable.ownerOf · f) (e.locks_manifest ..).1

/-- **Whatever messages a server is sent on a connection, its mount is the same afterwards, or one
entry of it was stored at the time of the call or removed.** -/
theorem Server.turns_serve (s : Server) (times : Schedule) (messages : List Message) :
    s.endpoint.mount.Turns times.transfer.calendar
      (s.serve times messages).1.endpoint.mount := by
  unfold serve
  cases Opening.read messages with
  | none => exact .of_eq rfl
  | some o =>
      show s.endpoint.mount.Turns times.transfer.calendar (Server.work _ _ _ _ _).endpoint.mount
      unfold work
      split
      · exact s.endpoint.turns_dispatch ..
      · exact .of_eq (s.endpoint.mount_expire ..)

end MountSync
