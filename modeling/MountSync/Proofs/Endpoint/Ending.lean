/-
How a store and a delete end.

Besides the mount such a call changes three things: the row of its file, the feed, and the counters.
Up to its last step it changes none of them, but for the number of stores that were refused.  And the
last step finds its caller to be the owner still, so that giving the lock back cannot fail after a
file was counted.

A call decides in many places whether its file is there, for the row is to go with the file.  It may
have read the file, or have looked for it, with or without the benefit of the doubt, or it has just
put it in place or removed it.  Whatever it goes by, when the call is over it agrees with what one
finds then.
-/
import MountSync.Proofs.Endpoint.Disposal
import MountSync.Proofs.Endpoint.Twin

namespace MountSync

/-! ### Whether there is a file

There are two ways to look, and they differ only when it cannot be seen whether there is a file.
That counts as an absence, but a delete that could not remove its file counts it as a presence.
-/

namespace Mount

variable {m m' : Mount} {name : String}

theorem existsOr_of_locate {r : Place × Node} (found : m.locate name = .ok r) (fallback : Bool) :
    m.existsOr fallback name = true := by
  rw [existsOr, tryExists, found]

theorem existsOr_of_missing (missing : m.locate name = .error .noSuchFile) (fallback : Bool) :
    m.existsOr fallback name = false := by
  rw [existsOr, tryExists, missing]

/-- What is there for certain is there with the benefit of the doubt. -/
theorem existsOr_true_of_existsOr_false (present : m.existsOr false name = true) :
    m.existsOr true name = true := by
  unfold existsOr at present ⊢
  split at present
  · exact present
  · exact nomatch present

/-- A name under which something is there is admitted. -/
theorem admits_of_existsOr (accepted : accepts name = true)
    (present : m.existsOr false name = true) : m.Admits name := by
  cases found : m.locate name with
  | ok r => exact .of_locate accepted found
  | error fault =>
      unfold existsOr tryExists at present
      rw [found] at present
      cases fault <;> exact nomatch present

theorem existsOr_false_iff : m.existsOr false name = true ↔ m.tryExists name = .ok true := by
  unfold existsOr
  split
  · rename_i answer told
    rw [told]
    constructor
    · rintro rfl
      rfl
    · exact Except.ok.inj
  · rename_i fault told
    rw [told]
    exact ⟨nofun, nofun⟩

/-- In a mount that changes in its entries alone, the same names are admitted. -/
theorem Admits.entries (h : m.Admits name) (place : m'.place = m.place)
    (others : ∀ p, (∀ entry, p ≠ m.placeOf entry) → m'.tree.get? p = m.tree.get? p) :
    m'.Admits name :=
  h.congr place (others _ fun entry same => m.placeOf_ne_place entry same.symm)

/-- What was put in place is found. -/
theorem existsOr_of_install {temporary : EntryName} {content : Bytes} {written : UnixTime}
    (h : m.Admits name) (installed : m.install temporary name content written = .ok m')
    (fallback : Bool) : m'.existsOr fallback name = true := by
  unfold install at installed
  split at installed
  · split at installed
    · exact nomatch installed
    · rename_i f _ _
      cases installed
      have admits : ((m.drop temporary).put (.text name)
          (.file { f with content, modified := .atSecond written })).Admits name :=
        h.entries rfl fun p outside =>
          (FileTree.get?_put_ne _ (outside _) _).trans (m.tree.get?_drop_ne (outside _))
      exact existsOr_of_locate (admits.locate_file (get?_put_self ..)) fallback
  · exact nomatch installed

/-- What was removed is found no more. -/
theorem existsOr_of_removeFile (h : m.Admits name) (removed : m.removeFile name = .ok m')
    (fallback : Bool) : m'.existsOr fallback name = false := by
  obtain ⟨-, puts⟩ := puts_of_removeFile removed
  exact existsOr_of_missing ((h.puts puts).locate_none puts.entry) fallback

end Mount

/-- A copy that the caller's does not replace is there. -/
theorem exists_of_resolve {mine : FileVersion} {found : Option FileRecord}
    (h : resolve .store (found.map FileRecord.version) mine ≠ .proceed) :
    ∃ record, found = some record := by
  cases found with
  | none => exact absurd rfl h
  | some record => exact ⟨record, rfl⟩

/-! ### What has changed

`Untouched` is what a call keeps until its last step, and `Closed` is what it comes to by that step.
-/

/-- Whether a counter is about what was transferred and told. -/
def Counter.isTransfer : Counter → Bool
  | .storesCompleted | .fetchesCompleted | .deletesCompleted | .bytesReceived | .bytesSent
  | .published => true
  | .storesRejected | .fetchesSkipped | .granted | .denied | .released | .deleted | .wakeups
  | .timeouts | .waiting => false

namespace Endpoint

/-- Nothing was transferred and nothing was told. -/
def Quiet (e e' : Endpoint) : Prop := ∀ k, k.isTransfer = true → e'.tally k = e.tally k

/-- The locks and the feed are the same, and nothing was transferred. -/
structure Untouched (e e' : Endpoint) : Prop where
  locks : e'.locks = e.locks
  feed : e'.feed = e.feed
  tally : e.Quiet e'

/-- What a call that is over has made of the row of its file, of the feed and of the counters.  A
call that has failed tells nobody and has gained nothing. -/
structure Closed (e : Endpoint) (name : String) (client : ClientId) (kind : ChangeKind)
    (gain : Counter → Nat) (done : Bool) (e' : Endpoint) : Prop where
  locks : Mount.accepts name = true →
    e'.locks = (e.locks.releaseOrDelete name client (e'.fileExists name)).1
  feed : e'.feed = if done then (e.feed.publish name kind).1 else e.feed
  tally : ∀ k, k.isTransfer = true → e'.tally k = e.tally k + if done then gain k else 0

variable {e e₁ : Endpoint} {name : String} {client : ClientId} {kind : ChangeKind}
  {gain : Counter → Nat}

theorem quiet_withLocks (e : Endpoint) (t : LockTable) : e.Quiet (e.withLocks t) := by
  intro k transfer
  cases k <;> first | rfl | exact nomatch transfer

namespace Untouched

theorem refl (e : Endpoint) : e.Untouched e := ⟨rfl, rfl, fun _ _ => rfl⟩

theorem withMount (h : e.Untouched e₁) (m : Mount) : e.Untouched (e₁.withMount m) :=
  ⟨h.locks, h.feed, h.tally⟩

theorem countRejected (h : e.Untouched e₁) :
    e.Untouched (e₁.count StoreCall.countRejected) where
  locks := h.locks
  feed := h.feed
  tally := fun k transfer => by
    rw [← h.tally k transfer]
    cases k <;> first | rfl | exact nomatch transfer

/-- A call that is not the owner's ends without having changed anything. -/
theorem closed (h : e.Untouched e₁)
    (other : Mount.accepts name = true → e.locks.isOwner name client = false) :
    e.Closed name client kind gain false e₁ where
  locks := by
    intro accepted
    rw [LockTable.releaseOrDelete, LockTable.release_of_not_owner (other accepted),
      LockTable.delete_of_not_owner (other accepted), ite_self, h.locks]
  feed := h.feed
  tally := h.tally

/-- A call that fails lets go of its lock. -/
theorem dispose (h : e.Untouched e₁) {present : Bool} (sure : present = e₁.fileExists name) :
    e.Closed name client kind gain false (e₁.disposeLock name client present) where
  locks := by
    intro _
    rw [sure, ← h.locks]
    rfl
  feed := h.feed
  tally := fun k transfer => (e₁.quiet_withLocks _ k transfer).trans (h.tally k transfer)

end Untouched

/-- A call that succeeds lets go of its lock, counts what it has done and tells everybody. -/
theorem closed_of_success (h : e.Untouched e₁) (change : TransferStats → TransferStats)
    (present : Bool) {e₂ : Endpoint}
    (equal : e₂ = ((e₁.count change).withLocks
      (e₁.locks.releaseOrDelete name client present).1).announce name kind)
    (sure : present = e₁.fileExists name)
    (counted : ∀ k, k.isTransfer = true →
      (e₁.count change).tally k + (if k = .published then 1 else 0) = e₁.tally k + gain k) :
    e.Closed name client kind gain true e₂ where
  locks := by
    intro _
    rw [equal, sure, ← h.locks]
    rfl
  feed := by
    rw [equal, ← h.feed]
    rfl
  tally := by
    intro k transfer
    rw [equal, tally_announce, quiet_withLocks _ _ k transfer, counted k transfer,
      h.tally k transfer]
    rfl

end Endpoint

/-! ### Stores

`Course` is the invariant of a store.  For each phase it has what was found out so far, and in the
phases before the last step that the rows, the feed and the counters are as they were.
-/

/-- What a store adds to a counter if it succeeds. -/
def StoreHeader.gain (h : StoreHeader) : Counter → Nat
  | .storesCompleted | .published => 1
  | .bytesReceived => h.size.toNat
  | _ => 0

namespace StoreCall

/-- What a store has done to the endpoint that it came to, and what it has found out, by how far it
has come. -/
inductive Course (e₀ : Endpoint) (h : StoreHeader) : Endpoint → StorePhase → Prop
  | arrived : Course e₀ h e₀ .arrived
  | expired : Course e₀ h e₀ .expired
  | owner : e₀.locks.ownerOf h.name = some h.client → Course e₀ h e₀ .owner
  | opening {found : Option FileRecord} : e₀.locks.ownerOf h.name = some h.client →
      e₀.mount.statFile h.name = .ok found → Course e₀ h e₀ .opening
  | receiving {e : Endpoint} {intake : Intake} : e₀.Untouched e →
      e₀.locks.ownerOf h.name = some h.client → e.mount.Admits h.name →
        Course e₀ h e (.receiving intake)
  | complete {e : Endpoint} {intake : Intake} : e₀.Untouched e →
      e₀.locks.ownerOf h.name = some h.client → e.mount.Admits h.name →
        intake.received = h.size.toNat → Course e₀ h e (.complete intake)
  | installed {e : Endpoint} : e₀.Untouched e → e₀.locks.ownerOf h.name = some h.client →
      e.fileExists h.name = true → Course e₀ h e (.installed h.size.toNat)
  | givingUp {e : Endpoint} {failure : Failure} : e₀.Untouched e →
      Course e₀ h e (.givingUp failure)
  | disposing {e : Endpoint} {failure : Failure} {present : Bool} : e₀.Untouched e →
      present = e.fileExists h.name → Course e₀ h e (.disposing failure present)
  | finished {e : Endpoint} (result : Except Failure String) :
      e₀.Closed h.name h.client .stored h.gain result.isOk e →
        (∀ name, result = .ok name → name = h.name) → Course e₀ h e (.finished result)

variable {e₀ e : Endpoint} {now : Moment} {c : StoreCall}

/-- A call that has failed and has nothing to let go of is over. -/
theorem Course.fail {h : StoreHeader} {failure : Failure}
    (closed : e₀.Closed h.name h.client .stored h.gain false e) :
    Course e₀ h e (c.fail failure).phase :=
  .finished (.error failure) closed nofun

theorem course_checkCaller : Course e₀ c.header e₀ (c.checkCaller e₀ now).phase := by
  have refused : (Mount.accepts c.name = true → e₀.locks.isOwner c.name c.client = false) →
      e₀.Closed c.name c.client .stored c.header.gain false e₀ := (Endpoint.Untouched.refl e₀).closed
  unfold checkCaller
  split
  · rename_i failure invalid
    refine .fail (refused fun accepted => ?_)
    rw [Mount.checkName, if_pos accepted] at invalid
    cases invalid
  · split
    · exact .expired
    · split
      · rename_i owner
        exact .owner (LockTable.isOwner_iff.1 owner)
      · rename_i other
        exact .fail (refused fun _ => Bool.not_eq_true _ ▸ other)

theorem course_decideCopy (owner : e₀.locks.ownerOf c.name = some c.client) :
    Course e₀ c.header (c.decideCopy e₀ now).1 (c.decideCopy e₀ now).2.phase := by
  have same := Endpoint.Untouched.refl e₀
  -- The copy that was read is still there.
  have sure : ∀ {found : Option FileRecord}, e₀.mount.statFile c.name = .ok found →
      resolve .store (found.map FileRecord.version) c.header.version ≠ .proceed →
        found.isSome = e₀.fileExists c.name := by
    intro found stat stays
    obtain ⟨record, rfl⟩ := exists_of_resolve stays
    obtain ⟨-, p, f, located, -, -⟩ := Mount.file_of_statFile stat
    exact (Mount.existsOr_of_locate located false).symm
  unfold decideCopy
  split
  · exact .givingUp same
  · rename_i found stat
    split
    · rename_i resolved
      exact .disposing same.countRejected (sure stat (by rw [resolved]; exact nofun))
    · rename_i resolved
      exact .disposing same.countRejected (sure stat (by rw [resolved]; exact nofun))
    · split
      · exact .givingUp same
      · exact .opening owner stat

theorem course_openPartial (owner : e₀.locks.ownerOf c.name = some c.client)
    {found : Option FileRecord} (stat : e₀.mount.statFile c.name = .ok found) :
    Course e₀ c.header (c.openPartial e₀ now).1 (c.openPartial e₀ now).2.phase := by
  have same := Endpoint.Untouched.refl e₀
  unfold openPartial
  split
  · exact .givingUp same.countRejected
  · rename_i mount temporary made
    have opened := Mount.opened_of_createPartial made
    have admits := Mount.Admits.of_statFile stat (Mount.enter_of_createPartial made)
    exact .receiving (same.withMount mount) owner
      (admits.entries opened.place fun p outside => opened.others p (outside temporary))

theorem course_installContent {intake : Intake} (same : e₀.Untouched e)
    (owner : e₀.locks.ownerOf c.name = some c.client) (admits : e.mount.Admits c.name)
    (full : intake.received = c.header.size.toNat) :
    Course e₀ c.header (c.installContent e intake).1 (c.installContent e intake).2.phase := by
  unfold installContent
  split
  · exact .givingUp (same.withMount _).countRejected
  · rename_i mount installed
    rw [full]
    exact .installed (same.withMount mount) owner (Mount.existsOr_of_install admits installed false)

/-- The owner gives the lock back, so what was counted is told. -/
theorem course_conclude (same : e₀.Untouched e)
    (owner : e₀.locks.ownerOf c.name = some c.client) (present : e.fileExists c.name = true) :
    Course e₀ c.header (c.conclude e c.header.size.toNat).1
      (c.conclude e c.header.size.toNat).2.phase := by
  have released : (e.locks.release c.name c.client).2 = true :=
    LockTable.release_of_owner (same.locks ▸ owner)
  unfold conclude
  dsimp only
  split
  · rename_i locks refused
    exact nomatch released.symm.trans (congrArg Prod.snd refused)
  · rename_i locks given
    have given' : (e.locks.release c.name c.client).1 = locks := congrArg Prod.fst given
    refine .finished (.ok c.name) (Endpoint.closed_of_success same
      (countCompleted c.header.size.toNat) true ?_ present.symm ?_) ?_
    · rw [← given']
      rfl
    · intro k _
      cases k <;> rfl
    · intro name told
      exact (Except.ok.inj told).symm

theorem Course.closed {h : StoreHeader} {result : Except Failure String}
    (course : Course e₀ h e (.finished result)) :
    e₀.Closed h.name h.client .stored h.gain result.isOk e ∧
      ∀ name, result = .ok name → name = h.name := by
  cases course with
  | finished _ closed named => exact ⟨closed, named⟩

/-- Each function of the step leads from the course of its phase to that of the next. -/
theorem course_step (h : Course e₀ c.header e c.phase) :
    Course e₀ c.header (c.step e now).1 (c.step e now).2.phase := by
  unfold step
  cases phase : c.phase with
  | arrived =>
      rw [phase] at h
      cases h
      exact course_checkCaller
  | expired =>
      rw [phase] at h
      cases h
      dsimp only
      split
      · exact .givingUp (.refl _)
      · rename_i other
        exact .fail ((Endpoint.Untouched.refl _).closed fun _ => Bool.not_eq_true _ ▸ other)
  | owner =>
      rw [phase] at h
      cases h with
      | owner owner => exact course_decideCopy owner
  | opening =>
      rw [phase] at h
      cases h with
      | opening owner stat => exact course_openPartial owner stat
  | receiving intake => exact h
  | complete intake =>
      rw [phase] at h
      cases h with
      | complete same owner admits full => exact course_installContent same owner admits full
  | installed received =>
      rw [phase] at h
      cases h with
      | installed same owner present => exact course_conclude same owner present
  | givingUp failure =>
      rw [phase] at h
      cases h with
      | givingUp same => exact .disposing same rfl
  | disposing failure present =>
      rw [phase] at h
      cases h with
      | disposing same sure => exact .fail (same.dispose sure)
  | finished result => exact h

/-- What has arrived is complete if there is nothing to be said against it. -/
theorem course_take (h : Course e₀ c.header e c.phase) (a : Arrival) :
    Course e₀ c.header (c.take e now a).1 (c.take e now a).2.phase := by
  unfold take
  split
  · rename_i intake phase
    rw [phase] at h
    cases h with
    | receiving same owner admits =>
        have thrown : ∀ failure, Course e₀ c.header (c.reject e intake failure).1
            (c.reject e intake failure).2.phase :=
          fun failure => .givingUp (same.withMount _).countRejected
        split
        · split
          · exact thrown _
          · exact .receiving same owner admits
        · split
          · exact thrown _
          · rename_i fits
            refine .complete same owner admits ?_
            unfold Intake.mismatch at fits
            split at fits
            · exact nomatch fits
            · rename_i full
              exact Decidable.not_not.1 full
        · exact thrown _
        · exact thrown _
        · exact thrown _
  · exact h

end StoreCall

namespace Endpoint

/-- A store lets go of its lock whatever it comes to; it counts and tells of its file if it
succeeds. -/
theorem closed_storeFrom (e : Endpoint) (h : StoreHeader) (d : Deadline) (s : Schedule)
    (stream : List Arrival) :
    e.Closed h.name h.client .stored h.gain (e.storeFrom h d s stream).2.1.isOk
        (e.storeFrom h d s stream).1 ∧
      ∀ name, (e.storeFrom h d s stream).2.1 = .ok name → name = h.name := by
  have step : ∀ (e' : Endpoint) (now : Moment) (c : StoreCall),
      c.header = h ∧ StoreCall.Course e h e' c.phase →
        (c.step e' now).2.header = h ∧
          StoreCall.Course e h (c.step e' now).1 (c.step e' now).2.phase := by
    rintro e' now c ⟨rfl, course⟩
    exact ⟨Running.header_of_origin (c.step_stride e' now).origin, StoreCall.course_step course⟩
  have take : ∀ (e' : Endpoint) (now : Moment) (c : StoreCall) (a : Arrival),
      a ∈ stream ∨ a = .late → c.header = h ∧ StoreCall.Course e h e' c.phase →
        (c.take e' now a).2.header = h ∧
          StoreCall.Course e h (c.take e' now a).1 (c.take e' now a).2.phase := by
    rintro e' now c a - ⟨rfl, course⟩
    exact ⟨Running.header_of_origin (c.take_stride e' now a).origin,
      StoreCall.course_take course a⟩
  have start : (StoreCall.begin h d).header = h ∧
      StoreCall.Course e h e (StoreCall.begin h d).phase := ⟨rfl, .arrived⟩
  obtain ⟨c, finished, -, course⟩ := storeFrom_induction stream step take start s
  rw [finished] at course
  exact course.closed

end Endpoint

/-! ### Deletes

As for stores, with what was found out about the file: it is there, it is gone, or it was never
there.
-/

namespace DeleteCall

/-- What a delete adds to a counter if it succeeds. -/
def gain : Counter → Nat
  | .deletesCompleted | .published => 1
  | _ => 0

/-- What a delete has done to the endpoint that it came to, and what it has found out, by how far it
has come. -/
inductive Course (e₀ : Endpoint) (name : String) (client : ClientId) :
    Endpoint → DeletePhase → Prop
  | arrived : Course e₀ name client e₀ .arrived
  | owner : Mount.accepts name = true → e₀.locks.ownerOf name = some client →
      Course e₀ name client e₀ .owner
  | present : Mount.accepts name = true → e₀.locks.ownerOf name = some client →
      e₀.fileExists name = true → Course e₀ name client e₀ .present
  | absent : e₀.fileExists name = false → Course e₀ name client e₀ .absent
  | removed {e : Endpoint} : e₀.Untouched e → e₀.locks.ownerOf name = some client →
      e.fileExists name = false → Course e₀ name client e .removed
  | refused {fault : IoFault} : e₀.fileExists name = true →
      Course e₀ name client e₀ (.refused fault)
  | disposing {failure : Failure} {present : Bool} : present = e₀.fileExists name →
      Course e₀ name client e₀ (.disposing failure present)
  | finished {e : Endpoint} (result : Except Failure Unit) :
      e₀.Closed name client .deleted gain result.isOk e →
        Course e₀ name client e (.finished result)

variable {e₀ e : Endpoint} {now : Moment} {c : DeleteCall}

theorem Course.fail {failure : Failure}
    (closed : e₀.Closed c.name c.client .deleted gain false e) :
    Course e₀ c.name c.client e (c.fail failure).phase :=
  .finished (.error failure) closed

theorem Course.closed {name : String} {client : ClientId} {result : Except Failure Unit}
    (course : Course e₀ name client e (.finished result)) :
    e₀.Closed name client .deleted gain result.isOk e := by
  cases course with
  | finished _ closed => exact closed

theorem course_checkCaller : Course e₀ c.name c.client e₀ (c.checkCaller e₀).phase := by
  have refused : (Mount.accepts c.name = true → e₀.locks.isOwner c.name c.client = false) →
      e₀.Closed c.name c.client .deleted gain false e₀ := (Endpoint.Untouched.refl e₀).closed
  unfold checkCaller
  split
  · rename_i failure invalid
    refine .fail (refused fun accepted => ?_)
    rw [Mount.checkName, if_pos accepted] at invalid
    cases invalid
  · rename_i checked
    split
    · rename_i owner
      exact .owner (Mount.accepts_of_checkName checked) (LockTable.isOwner_iff.1 owner)
    · rename_i other
      exact .fail (refused fun _ => Bool.not_eq_true _ ▸ other)

/-- What is there to be removed is a name that the mount admits, so it is missed afterwards. -/
theorem course_remove (accepted : Mount.accepts c.name = true)
    (owner : e₀.locks.ownerOf c.name = some c.client) (present : e₀.fileExists c.name = true) :
    Course e₀ c.name c.client (c.remove e₀).1 (c.remove e₀).2.phase := by
  unfold remove
  split
  · exact .refused present
  · rename_i mount removed
    have admits := Mount.admits_of_existsOr accepted present
    exact .removed ((Endpoint.Untouched.refl e₀).withMount mount) owner
      (Mount.existsOr_of_removeFile admits removed false)

theorem course_conclude (same : e₀.Untouched e) (owner : e₀.locks.ownerOf c.name = some c.client)
    (absent : e.fileExists c.name = false) :
    Course e₀ c.name c.client (c.conclude e).1 (c.conclude e).2.phase := by
  have deleted : (e.locks.delete c.name c.client).2 = true :=
    LockTable.delete_of_owner (same.locks ▸ owner)
  unfold conclude
  split
  · rename_i locks refused
    exact nomatch deleted.symm.trans (congrArg Prod.snd refused)
  · rename_i locks given
    have given' : (e.locks.delete c.name c.client).1 = locks := congrArg Prod.fst given
    refine .finished (.ok ())
      (Endpoint.closed_of_success same countCompleted false ?_ absent.symm ?_)
    · rw [← given']
      rfl
    · intro k _
      cases k <;> rfl

theorem course_step (h : Course e₀ c.name c.client e c.phase) :
    Course e₀ c.name c.client (c.step e now).1 (c.step e now).2.phase := by
  unfold step
  cases phase : c.phase with
  | arrived =>
      rw [phase] at h
      cases h
      exact course_checkCaller
  | owner =>
      rw [phase] at h
      cases h with
      | owner accepted owner =>
          dsimp only
          cases present : e₀.fileExists c.name with
          | false => exact .absent present
          | true =>
              rw [Bool.not_true, if_neg Bool.false_ne_true]
              split
              · exact .disposing present.symm
              · exact .present accepted owner present
  | present =>
      rw [phase] at h
      cases h with
      | present accepted owner present => exact course_remove accepted owner present
  | absent =>
      rw [phase] at h
      cases h with
      | absent absent => exact .fail ((Endpoint.Untouched.refl _).dispose absent.symm)
  | removed =>
      rw [phase] at h
      cases h with
      | removed same owner absent => exact course_conclude same owner absent
  | refused fault =>
      rw [phase] at h
      cases h with
      | refused present =>
          exact .disposing ((Mount.existsOr_true_of_existsOr_false present).trans present.symm)
  | disposing failure present =>
      rw [phase] at h
      cases h with
      | disposing sure => exact .fail ((Endpoint.Untouched.refl _).dispose sure)
  | finished result => exact h

end DeleteCall

namespace Endpoint

/-- A delete lets go of its lock whatever it comes to; it counts and tells of its file if it
succeeds. -/
theorem closed_delete (e : Endpoint) (name : String) (client : ClientId) (d : Deadline)
    (s : Schedule) :
    e.Closed name client .deleted DeleteCall.gain (e.delete name client d s).2.isOk
      (e.delete name client d s).1 := by
  have step : ∀ (e' : Endpoint) (now : Moment) (c : DeleteCall),
      (c.name = name ∧ c.client = client) ∧ DeleteCall.Course e name client e' c.phase →
        ((c.step e' now).2.name = name ∧ (c.step e' now).2.client = client) ∧
          DeleteCall.Course e name client (c.step e' now).1 (c.step e' now).2.phase := by
    rintro e' now c ⟨⟨rfl, rfl⟩, course⟩
    have subject := (c.step_stride e' now).subject?
    exact ⟨Prod.mk.inj (Option.some.inj subject), DeleteCall.course_step course⟩
  have start : ((DeleteCall.begin name client d).name = name ∧
      (DeleteCall.begin name client d).client = client) ∧
        DeleteCall.Course e name client e (DeleteCall.begin name client d).phase :=
    ⟨⟨rfl, rfl⟩, .arrived⟩
  obtain ⟨c, finished, -, course⟩ := delete_induction step start s
  rw [finished] at course
  exact course.closed

/-- What a call leaves of the rows.  If its client owned the file, nobody does any more, and there is
a row for the file exactly if one finds something under its name; otherwise no row has changed.  Those
of other files have not in any case. -/
structure LetsGo (e : Endpoint) (file : String) (client : ClientId) (e' : Endpoint) : Prop where
  free : e.locks.ownerOf file = some client → e'.locks.ownerOf file = none
  kept : e.locks.ownerOf file = some client →
    (e'.locks.contains file = true ↔ e'.mount.tryExists file = .ok true)
  spared : e.locks.ownerOf file ≠ some client →
    ∀ other, e'.locks.rows.get? other = e.locks.rows.get? other
  elsewhere : ∀ other, other ≠ file → e'.locks.rows.get? other = e.locks.rows.get? other

theorem LetsGo.of_disposed {e e' : Endpoint} {file : String} {client : ClientId}
    (locks : e'.locks = (e.locks.releaseOrDelete file client (e'.fileExists file)).1) :
    e.LetsGo file client e' where
  free := fun owner => Disposed.ownerOf owner ⟨_, locks⟩
  kept := by
    intro owner
    have owns : e.locks.isOwner file client = true := LockTable.isOwner_iff.2 owner
    rw [← Mount.existsOr_false_iff, locks, LockTable.contains, Table.contains]
    show _ ↔ e'.fileExists file = true
    cases e'.fileExists file with
    | true => simp [LockTable.releaseOrDelete, LockTable.release, owns]
    | false => simp [LockTable.releaseOrDelete, LockTable.delete, owns]
  spared := by
    intro foreign other
    have foreign : e.locks.isOwner file client = false :=
      Bool.eq_false_iff.2 fun owns => foreign (LockTable.isOwner_iff.1 owns)
    rw [locks, LockTable.releaseOrDelete, LockTable.release_of_not_owner foreign,
      LockTable.delete_of_not_owner foreign, ite_self]
  elsewhere := by
    intro other different
    rw [locks, LockTable.releaseOrDelete]
    split
    · exact e.locks.get?_release_ne different client
    · exact e.locks.get?_delete_ne different client

/-- **Whichever way a call ends, its client lets go of the lock.**

It may be a store or a delete, or one whose deadline passes before its turn comes, and it may succeed
or fail for any reason: if the client owned the file, nobody does then, and the row is kept exactly if
there is something under the name. -/
theorem letsGo_of_resolve (e : Endpoint) {root path file : String}
    (accepted : Mount.resolve root file = .ok path) (client : ClientId) :
    (∀ (h : StoreHeader) (d : Deadline) (s : Schedule) (stream : List Arrival),
      h.name = file → h.client = client → e.LetsGo file client (e.store h d s stream).1) ∧
    (∀ (d : Deadline) (s : Schedule), e.LetsGo file client (e.delete file client d s).1) ∧
    e.LetsGo file client (e.abandonExpired file client) := by
  have accepted : Mount.accepts file = true := by
    unfold Mount.resolve at accepted
    split at accepted
    · exact nomatch accepted
    · rename_i checked
      exact Mount.accepts_of_checkName checked
  refine ⟨?_, ?_, ?_⟩
  · rintro h d s stream rfl rfl
    exact .of_disposed ((e.closed_storeFrom h d s stream).1.locks accepted)
  · exact fun d s => .of_disposed ((e.closed_delete file client d s).locks accepted)
  · rw [e.abandonExpired_eq accepted client]
    exact .of_disposed rfl

/-- Alice's store breaks off and the row stays without an owner; her delete takes the row with the
file; and nothing happens to her row on behalf of bob. -/
theorem letsGo_alice :
    let now := Schedule.atOnce ⟨0, 50⟩
    let header : StoreHeader := ⟨"f", 1, "alice", checksum [2], 9⟩
    let broken := (lockedByAlice.store header ⟨100⟩ now [.chunk [2], .broken .streamClosed]).1
    let removed := (lockedByAlice.delete "f" "alice" ⟨100⟩ now).1
    Mount.resolve "m" "f" = .ok "m/f" ∧
      (broken.locks.contains "f" = true ∧ broken.locks.ownerOf "f" = none) ∧
      removed.locks.contains "f" ≠ true ∧
      (lockedByAlice.abandonExpired "f" "bob").locks.rows.get? "f" = some (some "alice") := by
  intro now header broken removed
  have accepted : Mount.resolve "m" "f" = .ok "m/f" := by decide
  have owner : lockedByAlice.locks.ownerOf "f" = some "alice" := by decide
  have foreign : lockedByAlice.locks.ownerOf "f" ≠ some "bob" := by decide
  obtain ⟨store, delete, -⟩ := letsGo_of_resolve lockedByAlice accepted "alice"
  obtain ⟨-, -, expired⟩ := letsGo_of_resolve lockedByAlice accepted "bob"
  have afterStore := store header ⟨100⟩ now [.chunk [2], .broken .streamClosed] rfl rfl
  have afterDelete := delete ⟨100⟩ now
  refine ⟨accepted, ⟨(afterStore.kept owner).2 (by decide +kernel), afterStore.free owner⟩, ?_, ?_⟩
  · exact fun row => absurd ((afterDelete.kept owner).1 row) (by decide +kernel)
  · rw [expired.spared foreign]
    decide

end Endpoint

end MountSync
