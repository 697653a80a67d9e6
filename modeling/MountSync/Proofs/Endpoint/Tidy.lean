/-
What calls leave lying around.

A row that nobody owns is kept for a file that is there, and so that the next one who asks for its
lock finds it.  Nothing in a table says so: a lock is given back by one call, and the file may be
removed by another one, of another client.  But whoever removes a file owns its row at that time and
gives up the row with it.

So it is enough that nobody keeps a row who has not found the file.  A call that is about to give
its lock back has just put the file in place, or has looked for it, and between looking and giving
back nothing happens to it if the call runs alone.

Besides rows, a call could leave its temporary file behind.  It does not either: a store drops it or
gives it its name.
-/
import MountSync.Proofs.Endpoint.Alone
import MountSync.Proofs.Endpoint.Turn
import MountSync.Proofs.Lock.History

namespace MountSync

/-! ### Rows and entries

The invariant is about every row, also of files that no call is about at the time.  A removal is the
only change to a mount that can break it, and then only for the file that is removed.
-/

namespace Mount

variable {m : Mount} {name : String}

/-- What is found under a name that calls may use is what an entry is or leads to. -/
theorem isSome_of_locate (accepted : accepts name = true) {r : Place × Node}
    (found : m.locate name = .ok r) : (m.get? (.text name)).isSome := by
  cases entry : m.get? (.text name) with
  | none =>
      have missing := (Admits.of_locate accepted found).locate_none entry
      exact nomatch found.symm.trans missing
  | some node => rfl

theorem isSome_of_existsOr (accepted : accepts name = true)
    (present : m.existsOr false name = true) : (m.get? (.text name)).isSome := by
  cases found : m.locate name with
  | ok r => exact isSome_of_locate accepted found
  | error fault =>
      unfold existsOr tryExists at present
      rw [found] at present
      cases fault <;> exact nomatch present

theorem accepts_of_checkName (h : checkName name = .ok ()) : accepts name = true := by
  unfold checkName at h
  split at h
  · assumption
  · exact nomatch h

/-- Whether an entry is the temporary file of a transfer, by its name. -/
def isTemporary : EntryName → Bool
  | .text name => isPartial name
  | .random before _ after => before = partialPrefix && after = partialSuffix
  | .binary _ => false

end Mount

namespace Endpoint

/-- A record that is told is that of the file under the name. -/
theorem statFile_of_stat {e : Endpoint} {name : String} {deadline : Deadline} {now : Nat}
    {record : FileRecord} (h : e.stat name deadline now = .ok record) :
    e.mount.statFile name = .ok (some record) := by
  unfold stat at h
  split at h
  · exact nomatch h
  · split at h
    · exact nomatch h
    · exact nomatch h
    · rename_i looked
      cases h
      exact looked

/-- Each row is that of a name that calls may use, and of an entry unless somebody owns it. -/
structure Tidy (e : Endpoint) : Prop where
  named : ∀ file, e.locks.contains file = true → Mount.accepts file = true
  present : ∀ file, e.locks.rows.get? file = some none → (e.mount.get? (.text file)).isSome

variable {e e' : Endpoint} {name file : String} {client : ClientId}

/-- With the locks as they were, only entries that have gone could make a difference. -/
theorem Tidy.of_locks_eq (h : e.Tidy) (locks : e'.locks = e.locks)
    (entries : ∀ file, e.locks.rows.get? file = some none →
      (e.mount.get? (.text file)).isSome → (e'.mount.get? (.text file)).isSome) : e'.Tidy where
  named := by
    rw [locks]
    exact h.named
  present := by
    intro file free
    rw [locks] at free
    exact entries file free (h.present file free)

theorem Tidy.of_eq (h : e.Tidy) (locks : e'.locks = e.locks) (mount : e'.mount = e.mount) :
    e'.Tidy :=
  h.of_locks_eq locks fun _ _ present => mount ▸ present

/-- A client owns no file whose name calls may not use. -/
theorem Tidy.accepts_of_owner (h : e.Tidy) (owner : e.locks.isOwner name client = true) :
    Mount.accepts name = true := by
  have row := LockTable.ownerOf_eq_some_iff.1 (LockTable.isOwner_iff.1 owner)
  refine h.named name ?_
  rw [LockTable.contains, Table.contains, row]
  rfl

/-- What the owner of a file finds under its name is an entry. -/
theorem Tidy.isSome_of_fileExists (h : e.Tidy) (owner : e.locks.isOwner name client = true)
    (present : e.fileExists name = true) : (e.mount.get? (.text name)).isSome :=
  Mount.isSome_of_existsOr (h.accepts_of_owner owner) present

/-- An operation on the table keeps it tidy if it does not make a row for a name that calls may not
use, nor keep one for a file that is not there. -/
theorem Tidy.perform (h : e.Tidy) (c : LockCall)
    (named : c.action = .acquire → Mount.accepts c.file = true)
    (sure : e.locks.isOwner c.file c.client = true → c.row = some none →
      (e.mount.get? (.text c.file)).isSome) :
    (e.withLocks (e.locks.perform c).1).Tidy where
  named := by
    intro file contained
    have row := e.locks.get?_perform c file
    by_cases changes : c.file = file ∧ (e.locks.perform c).2 = true
    · obtain ⟨rfl, succeeds⟩ := changes
      by_cases acquires : c.action = .acquire
      · exact named acquires
      · rw [(e.locks.perform_of_letGo acquires).1] at succeeds
        exact h.accepts_of_owner succeeds
    · rw [if_neg changes] at row
      refine h.named file ?_
      rw [LockTable.contains, Table.contains, ← row]
      exact contained
  present := by
    intro file free
    have row := e.locks.get?_perform c file
    by_cases changes : c.file = file ∧ (e.locks.perform c).2 = true
    · obtain ⟨rfl, succeeds⟩ := changes
      rw [if_pos ⟨rfl, succeeds⟩] at row
      have left : c.row = some none := row.symm.trans free
      have letsGo : c.action ≠ .acquire := by
        intro acquires
        rw [LockCall.row, acquires] at left
        cases left
      rw [(e.locks.perform_of_letGo letsGo).1] at succeeds
      exact sure succeeds left
    · rw [if_neg changes] at row
      exact h.present file (row.symm.trans free)

theorem Tidy.disposeLock (h : e.Tidy) {present : Bool}
    (sure : present = true → (e.mount.get? (.text name)).isSome) :
    (e.disposeLock name client present).Tidy := by
  refine h.perform ⟨.dispose present, name, client⟩ nofun fun _ left => ?_
  cases present with
  | true => exact sure rfl
  | false => exact nomatch left

theorem Tidy.release (h : e.Tidy) (sure : (e.mount.get? (.text name)).isSome) :
    (e.withLocks (e.locks.release name client).1).Tidy :=
  h.perform ⟨.release, name, client⟩ nofun fun _ _ => sure

theorem Tidy.delete (h : e.Tidy) : (e.withLocks (e.locks.delete name client).1).Tidy :=
  h.perform ⟨.delete, name, client⟩ nofun nofun

theorem Tidy.acquire (h : e.Tidy) (accepted : Mount.accepts name = true) :
    (e.withLocks (e.locks.acquire name client).1).Tidy :=
  h.perform ⟨.acquire, name, client⟩ (fun _ => accepted) fun _ => nofun

end Endpoint

/-! ### A call on the way

Its caller owns the file while the call relies on it.  And before it gives its lock back the call
has come to know that the file is there. -/

/-- Whether a store has put its file in place or found one. -/
def StorePhase.finds : StorePhase → Bool
  | .installed _ | .disposing _ true => true
  | _ => false

def DeletePhase.finds : DeletePhase → Bool
  | .present | .refused _ | .disposing _ true => true
  | _ => false

def ProbePhase.finds : ProbePhase → Bool
  | .same | .owner => true
  | _ => false

def ExpiryPhase.finds : ExpiryPhase → Bool
  | .disposing true => true
  | _ => false

namespace Running

def finds : Running → Bool
  | store c => c.phase.finds
  | fetch _ => false
  | delete c => c.phase.finds
  | probe c => c.phase.finds
  | expiry c => c.phase.finds

def name : Running → String
  | store c => c.name
  | fetch c => c.name
  | delete c => c.name
  | probe c => c.name
  | expiry c => c.name

/-- The endpoint is tidy, and if the call has found its file it is there. -/
structure Sound (e : Endpoint) (r : Running) : Prop where
  tidy : e.Tidy
  sure : r.finds = true → (e.mount.get? (.text r.name)).isSome

/-- A call on a tidy endpoint, alone. -/
structure Neat (e : Endpoint) (r : Running) : Prop extends Sound e r where
  hides : r.Hides
  owned : r.relies = true → r.OwnedIn e.locks

variable {e e' : Endpoint} {r r' : Running}

/-- Of a call that has not found its file there is no more to be said. -/
theorem Sound.unseen (tidy : e.Tidy) (unseen : r.finds = false) : r.Sound e :=
  ⟨tidy, fun finds => absurd (unseen.symm.trans finds) Bool.false_ne_true⟩

theorem Neat.stride (h : r.Neat e) (stride : Stride e r e' r') (sound : r'.Sound e') :
    r'.Neat e' where
  toSound := sound
  hides := stride.mount.hides h.hides
  owned := by
    intro relies
    obtain ⟨file, client, subject, owner⟩ : r.OwnedIn e.locks := by
      rcases stride.check relies with before | owned
      · exact h.owned before
      · exact owned
    rw [stride.locks.eq_of_relies relies]
    exact ⟨file, client, stride.subject?.trans subject, owner⟩

/-- Entries are there after a stride of a call that does not remove its file. -/
theorem Neat.isSome_of_stride (h : r.Neat e) (stride : Stride e r e' r')
    (quiet : r.writes = false) {name : String} (present : (e.mount.get? (.text name)).isSome) :
    (e'.mount.get? (.text name)).isSome := by
  rcases stride.mount.get?_text h.hides name with same | ⟨writes, -⟩
  · rw [same]
    exact present
  · exact nomatch quiet.symm.trans writes

/-- While a call relies on its lock it leaves the endpoint tidy, unless it removes its file. -/
theorem Neat.tidy_of_relies (h : r.Neat e) (stride : Stride e r e' r') (quiet : r.writes = false)
    (relies : r'.relies = true) : e'.Tidy :=
  h.tidy.of_locks_eq (stride.locks.eq_of_relies relies) fun _ _ => h.isSome_of_stride stride quiet

theorem Neat.isOwner (h : r.Neat e) (relies : r.relies = true) {file : String} {client : ClientId}
    (subject : r.subject? = some (file, client)) : e.locks.isOwner file client = true := by
  obtain ⟨file', client', subject', owner⟩ := h.owned relies
  obtain ⟨rfl, rfl⟩ := Prod.mk.inj (Option.some.inj (subject.symm.trans subject'))
  exact LockTable.isOwner_iff.2 owner

theorem Neat.begin (tidy : e.Tidy) (fresh : r.origin = r) (lost : r.finds = false) :
    r.Neat e where
  tidy := tidy
  sure := fun finds => nomatch lost.symm.trans finds
  hides := fun τ temporary => by
    rw [← fresh, temporary?_origin] at temporary
    exact nomatch temporary
  owned := fun relies => by
    rw [← fresh, relies_origin] at relies
    exact nomatch relies

end Running

/-! ### Stores

A store gives its lock back in two ways: with the content in place, or after a look for the file.
Each function of its step is shown to keep the two halves of `Sound`.
-/

namespace StoreCall

variable {e : Endpoint} {now : Moment} {c : StoreCall}

/-- The file is known to be there before its lock is given back. -/
theorem sound_disposing {failure : Failure} {present : Bool} (tidy : e.Tidy)
    (sure : present = true → (e.mount.get? (.text c.name)).isSome) :
    (Running.store (c.goTo (.disposing failure present))).Sound e := by
  refine ⟨tidy, fun finds => sure ?_⟩
  cases present with
  | true => rfl
  | false => exact nomatch finds

theorem sound_checkCaller (tidy : e.Tidy) : (Running.store (c.checkCaller e now)).Sound e := by
  unfold checkCaller
  split
  · exact .unseen tidy rfl
  · split
    · exact .unseen tidy rfl
    · split <;> exact .unseen tidy rfl

theorem sound_decideCopy (tidy : e.Tidy) :
    (Running.store (c.decideCopy e now).2).Sound (c.decideCopy e now).1 := by
  have counted : (e.count countRejected).Tidy := tidy.of_eq rfl rfl
  have sure : ∀ {found : Option FileRecord}, e.mount.statFile c.name = .ok found →
      found.isSome = true → (e.mount.get? (.text c.name)).isSome := by
    rintro (_ | record) stat present
    · exact nomatch present
    · obtain ⟨accepted, p, f, located, -, -⟩ := Mount.file_of_statFile stat
      exact Mount.isSome_of_locate accepted located
  unfold decideCopy
  split
  · exact .unseen tidy rfl
  · rename_i found stat
    split
    · exact sound_disposing counted (sure stat)
    · exact sound_disposing counted (sure stat)
    · split <;> exact .unseen tidy rfl

/-- Nothing is known of the file here, and a temporary file takes no entry away. -/
theorem sound_openPartial (h : (Running.store c).Neat e) (phase : c.phase = .opening) :
    (Running.store (c.openPartial e now).2).Sound (c.openPartial e now).1 := by
  have quiet : (Running.store c).writes = false := by rw [Running.writes, phase]; rfl
  refine .unseen (h.tidy_of_relies (openPartial_stride e now phase) quiet ?_) ?_
  · unfold openPartial
    split <;> rfl
  · unfold openPartial
    split <;> rfl

theorem sound_reject (h : (Running.store c).Neat e) {intake : Intake}
    (temporary : c.phase.temporary? = some intake.temporary) (failure : Failure) :
    (Running.store (c.reject e intake failure).2).Sound (c.reject e intake failure).1 := by
  refine .unseen (h.tidy.of_locks_eq rfl fun file _ present => ?_) rfl
  show ((e.mount.drop intake.temporary).get? (.text file)).isSome
  rw [e.mount.get?_drop_ne (h.hides _ temporary file)]
  exact present

theorem sound_installContent (h : (Running.store c).Neat e) {intake : Intake}
    (phase : c.phase = .complete intake) :
    (Running.store (c.installContent e intake).2).Sound (c.installContent e intake).1 := by
  have temporary : c.phase.temporary? = some intake.temporary := by rw [phase]; rfl
  unfold installContent
  cases installed : e.mount.install intake.temporary c.name intake.content intake.written with
  | error fault => exact sound_reject h temporary _
  | ok mount =>
      obtain ⟨f, rfl⟩ : ∃ f,
          mount = (e.mount.drop intake.temporary).put (.text c.name) (.file f) := by
        unfold Mount.install at installed
        split at installed
        · split at installed
          · exact nomatch installed
          · exact ⟨_, (Except.ok.inj installed).symm⟩
        · exact nomatch installed
      have own : (((e.mount.drop intake.temporary).put (.text c.name) (.file f)).get?
          (.text c.name)).isSome := by
        rw [Mount.get?_put_self]
        rfl
      refine ⟨h.tidy.of_locks_eq rfl fun file _ present => ?_, fun _ => own⟩
      by_cases same : file = c.name
      · rw [same]
        exact own
      · show (((e.mount.drop intake.temporary).put (.text c.name) (.file f)).get?
          (.text file)).isSome
        rw [Mount.get?_put_ne _ fun h => same (EntryName.text.inj h),
          e.mount.get?_drop_ne (h.hides _ temporary file)]
        exact present

theorem sound_conclude (tidy : e.Tidy) (present : (e.mount.get? (.text c.name)).isSome)
    (received : Nat) :
    (Running.store (c.conclude e received).2).Sound (c.conclude e received).1 := by
  have counted : (e.count (countCompleted received)).Tidy := tidy.of_eq rfl rfl
  unfold conclude
  dsimp only
  split
  · exact .unseen counted rfl
  · rename_i locks released
    rw [show locks = (e.locks.release c.name c.client).1 from (congrArg Prod.fst released).symm]
    have given : ((e.count (countCompleted received)).withLocks
      (e.locks.release c.name c.client).1).Tidy := counted.release present
    exact .unseen (given.of_eq rfl rfl) rfl

theorem sound_step (h : (Running.store c).Neat e) :
    (Running.store (c.step e now).2).Sound (c.step e now).1 := by
  have sure : c.phase.finds = true → (e.mount.get? (.text c.name)).isSome :=
    fun finds => h.sure finds
  unfold step
  cases phase : c.phase with
  | arrived => exact sound_checkCaller h.tidy
  | expired =>
      dsimp only
      split <;> exact .unseen h.tidy rfl
  | owner => exact sound_decideCopy h.tidy
  | opening => exact sound_openPartial h phase
  | receiving intake => exact ⟨h.tidy, sure⟩
  | complete intake => exact sound_installContent h phase
  | installed received => exact sound_conclude h.tidy (sure (by rw [phase]; rfl)) received
  | givingUp failure =>
      have owner : e.locks.isOwner c.name c.client = true :=
        h.isOwner (by rw [Running.relies, phase]; rfl) rfl
      exact sound_disposing h.tidy (h.tidy.isSome_of_fileExists owner)
  | disposing failure present =>
      refine .unseen (h.tidy.disposeLock fun there => sure ?_) rfl
      rw [phase, there]
      rfl
  | finished result => exact ⟨h.tidy, sure⟩

theorem sound_take (h : (Running.store c).Neat e) (a : Arrival) :
    (Running.store (c.take e now a).2).Sound (c.take e now a).1 := by
  unfold take
  split
  · rename_i intake phase
    have temporary : c.phase.temporary? = some intake.temporary := by rw [phase]; rfl
    split
    · split
      · exact sound_reject h temporary _
      · exact .unseen h.tidy rfl
    · split
      · exact sound_reject h temporary _
      · exact .unseen h.tidy rfl
    · exact sound_reject h temporary _
    · exact sound_reject h temporary _
    · exact sound_reject h temporary _
  · exact ⟨h.tidy, fun finds => h.sure finds⟩

end StoreCall

/-! ### Deletes

A delete that removes its file leaves, for one step, a row with an owner and without an entry.  That
is tidy, since the row has an owner, and its next step drops the row.
-/

namespace DeleteCall

variable {e : Endpoint} {now : Moment} {c : DeleteCall}

theorem sound_checkCaller (tidy : e.Tidy) : (Running.delete (c.checkCaller e)).Sound e := by
  unfold checkCaller
  split
  · exact .unseen tidy rfl
  · split <;> exact .unseen tidy rfl

/-- The row of the file that is removed is not one without an owner. -/
theorem sound_remove (h : (Running.delete c).Neat e) (phase : c.phase = .present) :
    (Running.delete (c.remove e).2).Sound (c.remove e).1 := by
  have owner : e.locks.isOwner c.name c.client = true :=
    h.isOwner (by rw [Running.relies, phase]; rfl) rfl
  have row := LockTable.ownerOf_eq_some_iff.1 (LockTable.isOwner_iff.1 owner)
  have found : c.phase.finds = true := by rw [phase]; rfl
  unfold remove
  cases removed : e.mount.removeFile c.name with
  | error fault => exact ⟨h.tidy, fun _ => h.sure found⟩
  | ok mount =>
      obtain ⟨-, puts⟩ := Mount.puts_of_removeFile removed
      refine .unseen (h.tidy.of_locks_eq rfl fun file free present => ?_) rfl
      show (mount.get? (.text file)).isSome
      rw [puts.get?_ne fun same => ?_]
      · exact present
      · rw [EntryName.text.inj same, row] at free
        cases free

theorem sound_conclude (tidy : e.Tidy) :
    (Running.delete (c.conclude e).2).Sound (c.conclude e).1 := by
  unfold conclude
  split
  · exact .unseen tidy rfl
  · rename_i locks deleted
    rw [show locks = (e.locks.delete c.name c.client).1 from (congrArg Prod.fst deleted).symm]
    have given : (e.withLocks (e.locks.delete c.name c.client).1).Tidy := tidy.delete
    exact .unseen (given.of_eq rfl rfl) rfl

theorem sound_step (h : (Running.delete c).Neat e) :
    (Running.delete (c.step e now).2).Sound (c.step e now).1 := by
  have sure : c.phase.finds = true → (e.mount.get? (.text c.name)).isSome :=
    fun finds => h.sure finds
  unfold step
  cases phase : c.phase with
  | arrived => exact sound_checkCaller h.tidy
  | owner =>
      have owner : e.locks.isOwner c.name c.client = true :=
        h.isOwner (by rw [Running.relies, phase]; rfl) rfl
      dsimp only
      cases present : e.fileExists c.name with
      | false => exact .unseen h.tidy rfl
      | true =>
          have there := h.tidy.isSome_of_fileExists owner present
          rw [Bool.not_true, if_neg Bool.false_ne_true]
          split <;> exact ⟨h.tidy, fun _ => there⟩
  | present => exact sound_remove h phase
  | absent => exact .unseen (h.tidy.disposeLock fun there => absurd there Bool.false_ne_true) rfl
  | removed => exact sound_conclude h.tidy
  | refused fault => exact ⟨h.tidy, fun _ => sure (by rw [phase]; rfl)⟩
  | disposing failure present =>
      refine .unseen (h.tidy.disposeLock fun there => sure ?_) rfl
      rw [phase, there]
      rfl
  | finished result => exact ⟨h.tidy, sure⟩

end DeleteCall

/-! ### Comparisons and calls that expire -/

theorem ProbeCall.sound_step {e : Endpoint} {now : Moment} {c : ProbeCall}
    (h : (Running.probe c).Neat e) :
    (Running.probe (c.step e now).2).Sound (c.step e now).1 := by
  have sure : c.phase.finds = true → (e.mount.get? (.text c.name)).isSome :=
    fun finds => h.sure finds
  unfold step
  cases phase : c.phase with
  | arrived =>
      dsimp only
      split
      · exact .unseen h.tidy rfl
      · rename_i record looked
        obtain ⟨accepted, p, f, located, -, -⟩ :=
          Mount.file_of_statFile (Endpoint.statFile_of_stat looked)
        have there := Mount.isSome_of_locate accepted located
        split <;> exact ⟨h.tidy, fun _ => there⟩
  | same =>
      dsimp only
      split
      · exact ⟨h.tidy, fun _ => sure (by rw [phase]; rfl)⟩
      · exact .unseen h.tidy rfl
  | owner => exact .unseen (h.tidy.release (sure (by rw [phase]; rfl))) rfl
  | finished result => exact ⟨h.tidy, sure⟩

theorem ExpiryCall.sound_step {e : Endpoint} {c : ExpiryCall} (h : (Running.expiry c).Neat e) :
    (Running.expiry (c.step e).2).Sound (c.step e).1 := by
  have sure : c.phase.finds = true → (e.mount.get? (.text c.name)).isSome :=
    fun finds => h.sure finds
  unfold step
  cases phase : c.phase with
  | arrived =>
      dsimp only
      split <;> exact .unseen h.tidy rfl
  | owner =>
      have owner : e.locks.isOwner c.name c.client = true :=
        h.isOwner (by rw [Running.relies, phase]; rfl) rfl
      dsimp only
      cases present : e.fileExists c.name with
      | true => exact ⟨h.tidy, fun _ => h.tidy.isSome_of_fileExists owner present⟩
      | false => exact .unseen h.tidy rfl
  | disposing present =>
      refine .unseen (h.tidy.disposeLock fun there => sure ?_) rfl
      rw [phase, there]
      rfl
  | finished => exact ⟨h.tidy, sure⟩

/-! ### Whole calls

The first state of a call is sound, and each of its steps keeps it so, whichever way the call takes.
-/

namespace Endpoint

variable {e : Endpoint}

/-- By the induction of a store that runs alone, over its steps and over what its stream brings. -/
theorem tidy_storeFrom (tidy : e.Tidy) (h : StoreHeader) (deadline : Deadline) (s : Schedule)
    (stream : List Arrival) : (e.storeFrom h deadline s stream).1.Tidy := by
  have step : ∀ (e : Endpoint) (now : Moment) (c : StoreCall), (Running.store c).Neat e →
      (Running.store (c.step e now).2).Neat (c.step e now).1 := fun e now c neat =>
    neat.stride (c.step_stride e now) (StoreCall.sound_step neat)
  have take : ∀ (e : Endpoint) (now : Moment) (c : StoreCall) (a : Arrival),
      a ∈ stream ∨ a = .late → (Running.store c).Neat e →
        (Running.store (c.take e now a).2).Neat (c.take e now a).1 :=
    fun e now c a _ neat => neat.stride (c.take_stride e now a) (StoreCall.sound_take neat a)
  obtain ⟨c, -, neat⟩ := storeFrom_induction (h := h) (d := deadline)
    (P := fun e c => (Running.store c).Neat e) stream step take (.begin tidy rfl rfl) s
  exact neat.tidy

theorem tidy_delete (tidy : e.Tidy) (name : String) (client : ClientId) (deadline : Deadline)
    (s : Schedule) : (e.delete name client deadline s).1.Tidy := by
  have step : ∀ (e : Endpoint) (now : Moment) (c : DeleteCall), (Running.delete c).Neat e →
      (Running.delete (c.step e now).2).Neat (c.step e now).1 := fun e now c neat =>
    neat.stride (c.step_stride e now) (DeleteCall.sound_step neat)
  have begun : (Running.delete (.begin name client deadline)).Neat e := .begin tidy rfl rfl
  obtain ⟨c, -, neat⟩ := delete_induction (P := fun e c => (Running.delete c).Neat e) step begun s
  exact neat.tidy

theorem tidy_probe (tidy : e.Tidy) (name : String) (client : ClientId) (sum : UInt32)
    (deadline : Deadline) (now : Moment) : (e.probe name client sum deadline now).1.Tidy := by
  have step : ∀ (e : Endpoint) (now : Moment) (c : ProbeCall), (Running.probe c).Neat e →
      (Running.probe (c.step e now).2).Neat (c.step e now).1 := fun e now c neat =>
    neat.stride (c.step_stride e now) (ProbeCall.sound_step neat)
  have begun : (Running.probe (.begin name client sum deadline)).Neat e := .begin tidy rfl rfl
  obtain ⟨c, -, neat⟩ := probe_induction (P := fun e c => (Running.probe c).Neat e) step begun now
  exact neat.tidy

theorem tidy_abandonExpired (tidy : e.Tidy) (name : String) (client : ClientId) :
    (e.abandonExpired name client).Tidy := by
  have step : ∀ (e : Endpoint) (c : ExpiryCall), (Running.expiry c).Neat e →
      (Running.expiry (c.step e).2).Neat (c.step e).1 := fun e c neat =>
    neat.stride (c.step_stride e) (ExpiryCall.sound_step neat)
  have begun : (Running.expiry (.begin name client)).Neat e := .begin tidy rfl rfl
  exact (step _ _ (step _ _ (step _ _ begun))).tidy

theorem tidy_requestLock (tidy : e.Tidy) (name : String) (client : ClientId) (deadline : Deadline)
    (now : Nat) : (e.requestLock name client deadline now).1.Tidy := by
  unfold requestLock
  split
  · exact tidy
  · split
    · exact tidy
    · rename_i checked
      have acquired : (e.withLocks (e.locks.acquire name client).1).Tidy :=
        tidy.acquire (Mount.accepts_of_checkName checked)
      split
      · rename_i locks granted
        rw [show locks = (e.locks.acquire name client).1 from (congrArg Prod.fst granted).symm]
        exact acquired
      · rename_i locks refused
        rw [show locks = (e.locks.acquire name client).1 from (congrArg Prod.fst refused).symm]
        exact acquired

theorem tidy_receive (tidy : e.Tidy) (v : Visit) : (e.receive v).Tidy := by
  have abandoned : ∀ request : Request, (e.expire [] request).endpoint.Tidy := by
    intro request
    cases request with
    | store header => exact tidy_abandonExpired tidy ..
    | delete name client => exact tidy_abandonExpired tidy ..
    | _ => exact tidy
  have fetched : ∀ name mine deadline times limits reader,
      (e.fetch name mine deadline times limits reader).1.Tidy := by
    intro name mine deadline times limits reader
    obtain ⟨mount, locks⟩ := e.still_fetch name mine deadline times limits reader
    exact tidy.of_eq locks mount
  cases v with
  | fetch name mine deadline times limits reader => exact fetched ..
  | expiry request => exact abandoned request
  | call request deadline times stream =>
      cases request with
      | requestLock name client => exact tidy_requestLock tidy ..
      | store header => exact tidy_storeFrom tidy ..
      | fetch name mine => exact fetched ..
      | delete name client => exact tidy_delete tidy ..
      | list => exact tidy
      | stat name => exact tidy
      | checksum name client sum => exact tidy_probe tidy ..
      | compareMtime name mtime => exact tidy
      | changeNotification maxWait =>
          obtain ⟨locks, mount⟩ := e.locks_manifest times.arrival.instant maxWait.toNat deadline
          exact tidy.of_eq locks mount

/-! ### Temporary files -/

/-- A call leaves no entry behind but one that was there or the file that it stored. -/
theorem isSome_of_receive (e : Endpoint) (v : Visit) {entry : EntryName}
    (temporary : Mount.isTemporary entry = true)
    (present : ((e.receive v).mount.get? entry).isSome) : (e.mount.get? entry).isSome := by
  have kept : (e.receive v).mount = e.mount → (e.mount.get? entry).isSome :=
    fun same => same ▸ present
  cases v with
  | fetch name mine deadline times limits reader => exact kept (e.still_fetch ..).1
  | expiry request => exact kept (e.mount_expire [] request)
  | call request deadline times stream =>
      cases request with
      | requestLock name client => exact kept (Traffic.mount_requestLock ..)
      | store header =>
          rcases e.mount_storeFrom header deadline times stream with
            same | ⟨accepted, content, -, placed⟩
          · rw [← same.get?_eq entry]
            exact present
          · obtain ⟨f, puts, -, -, -⟩ := placed.entry
            rw [← puts.get?_ne fun own => ?_]
            · exact present
            · rw [own] at temporary
              exact nomatch (Mount.accepts_iff.1 accepted).2.2.symm.trans temporary
      | fetch name mine => exact kept (e.still_fetch ..).1
      | delete name client =>
          rcases e.mount_delete name client deadline times with same | removed
          · exact kept same
          · obtain ⟨-, puts⟩ := Mount.puts_of_removeFile removed
            by_cases own : entry = .text name
            · rw [own] at present
              exact nomatch puts.entry ▸ present
            · rw [← puts.get?_ne own]
              exact present
      | list => exact present
      | stat name => exact present
      | checksum name client sum => exact kept (e.mount_probe ..)
      | compareMtime name mtime => exact present
      | changeNotification maxWait => exact kept (e.locks_manifest ..).2

/-- **Calls leave nothing lying around.**

Whatever calls are made on an endpoint without locks, one after another, there is no row then but
for a name that calls may use; a row that nobody owns is that of an entry of the mount; and there is
no temporary file of a transfer that was not there before. -/
theorem tidy_visits (e : Endpoint) (unlocked : e.locks = .empty) (visits : List Visit) :
    let e' := visits.foldl receive e
    (∀ file, e'.locks.contains file = true →
      ∀ root, Mount.resolve root file = .ok (Mount.joinPath root file)) ∧
    (∀ file, e'.locks.contains file = true → e'.locks.ownerOf file = none →
      (e'.mount.get? (.text file)).isSome) ∧
    ∀ entry, Mount.isTemporary entry = true → (e'.mount.get? entry).isSome →
      (e.mount.get? entry).isSome := by
  have start : e.Tidy := by
    constructor
    · intro file contained
      rw [unlocked] at contained
      exact nomatch contained
    · intro file free
      rw [unlocked] at free
      exact nomatch free
  have run : ∀ (visits : List Visit) (e : Endpoint), e.Tidy → (visits.foldl receive e).Tidy ∧
      ∀ entry, Mount.isTemporary entry = true →
        ((visits.foldl receive e).mount.get? entry).isSome → (e.mount.get? entry).isSome := by
    intro visits
    induction visits with
    | nil => exact fun e tidy => ⟨tidy, fun _ _ present => present⟩
    | cons v rest ih =>
        intro e tidy
        obtain ⟨after, fewer⟩ := ih (e.receive v) (tidy_receive tidy v)
        exact ⟨after, fun entry temporary present =>
          e.isSome_of_receive v temporary (fewer entry temporary present)⟩
  obtain ⟨tidy, fewer⟩ := run visits e start
  refine ⟨fun file contained root => ?_, fun file contained free => ?_, fewer⟩
  · rw [Mount.resolve, Mount.checkName, if_pos (tidy.named file contained)]
  · obtain ⟨owner, row⟩ := Option.isSome_iff_exists.1 contained
    rw [LockTable.ownerOf, row] at free
    refine tidy.present file ?_
    rw [row]
    exact congrArg some free

/-- Alice stores a file; what bob stores breaks off; and bob gives up before he deletes a file. -/
def errands : List Visit :=
  let now := Schedule.atOnce ⟨0, 50⟩
  [.call (.requestLock "f" "alice") ⟨100⟩ now [],
    .call (.store ⟨"f", 1, "alice", checksum [2], 9⟩) ⟨100⟩ now [.chunk [2], .ended],
    .call (.requestLock "g" "bob") ⟨100⟩ now [],
    .call (.store ⟨"g", 2, "bob", checksum [2], 9⟩) ⟨100⟩ now [.chunk [2]],
    .call (.requestLock "f" "bob") ⟨100⟩ now [], .expiry (.delete "f" "bob")]

/-- The row of the first file is kept without an owner, and the second file has none. -/
theorem errands_leave_rows :
    let e := Endpoint.create (.empty .bare [.text "m"]) 8 8
    let e' := errands.foldl receive e
    e.locks = .empty ∧ e'.locks.contains "f" = true ∧ e'.locks.ownerOf "f" = none ∧
      e'.locks.contains "g" = false ∧ (e'.mount.get? (.text "f")).isSome := by
  intro e e'
  have unlocked : e.locks = .empty := rfl
  have row : e'.locks.contains "f" = true := by decide +kernel
  have free : e'.locks.ownerOf "f" = none := by decide +kernel
  obtain ⟨-, present, -⟩ := tidy_visits e unlocked errands
  exact ⟨unlocked, row, free, by decide +kernel, present "f" row free⟩

end Endpoint

end MountSync
