/-
What a store that runs alone leaves behind.

Up to its stream a store only looks: at the name, the clock, the lock and the copy that is there.
While content comes in, what has arrived stands in a temporary file that nothing else reaches, so
the mount is the one that the store began with and that file.  Then there are two ways out.  If the
stream has brought what the header announced, the entry of the name is replaced.  On every other
way the temporary file is dropped, and the mount is the same as before.  Either way the lock is
given back or up.
-/
import MountSync.Endpoint.Store
import MountSync.Proofs.Lock
import MountSync.Proofs.Mount.Change

namespace MountSync

/-- The content that a stream brings, if it comes to its end. -/
def Arrival.contentOf? : List Arrival → Option Bytes
  | [] => none
  | .chunk piece :: rest => (contentOf? rest).map (piece ++ ·)
  | .ended :: _ => some []
  | .refused _ :: _ | .broken _ :: _ | .late :: _ => none

/-- Whether a content is what a header announced and can be put in place. -/
structure StoreHeader.Fulfilled (h : StoreHeader) (m : Mount) (content : Bytes) : Prop where
  length : content.length = h.size.toNat
  checksum : MountSync.checksum content = h.checksum
  free : m.get? (.text h.name) ≠ some .directory

namespace Endpoint

/-- The lock of a call was given back or up, and no other one has changed. -/
def Disposed (e : Endpoint) (name : String) (client : ClientId) (e' : Endpoint) : Prop :=
  ∃ present, e'.locks = (e.locks.releaseOrDelete name client present).1

/-- The file of a store was replaced by what has arrived. -/
structure Stored (e : Endpoint) (h : StoreHeader) (content : Bytes) (now : UnixTime)
    (e' : Endpoint) : Prop where
  fulfilled : h.Fulfilled e.mount content
  placed : e.mount.Placed now h.name content e'.mount
  disposed : e.Disposed h.name h.client e'

/-- A store has failed and has left the mount as it was. -/
structure Unstored (e : Endpoint) (h : StoreHeader) (e' : Endpoint) : Prop where
  mount : e.mount.SameAs e'.mount
  disposed : e.Disposed h.name h.client e'

/-- How a store ends, once it has begun to take content, by the content that its stream brings. -/
inductive Ends (e : Endpoint) (h : StoreHeader) (now : UnixTime) :
    Option Bytes → Endpoint → Except Failure String → Prop
  | stored {content : Bytes} {e' : Endpoint} :
      e.Stored h content now e' → Ends e h now (some content) e' (.ok h.name)
  | unstored {brought : Option Bytes} {e' : Endpoint} {failure : Failure} :
      (∀ content ∈ brought, ¬ h.Fulfilled e.mount content) → e.Unstored h e' →
        Ends e h now brought e' (.error failure)

end Endpoint

/-- The content is what a header announces exactly if its length and its checksum are. -/
theorem Intake.mismatch_eq_none_iff (i : Intake) (h : StoreHeader)
    (received : i.received = i.content.length) (crc : i.crc = Crc.fresh.update i.content) :
    i.mismatch h = none ↔
      i.content.length = h.size.toNat ∧ checksum i.content = h.checksum := by
  have sum : checksum i.content = (Crc.fresh.update i.content).finish := rfl
  rw [mismatch, received, crc, sum]
  by_cases length : i.content.length = h.size.toNat
  · by_cases same : (Crc.fresh.update i.content).finish = h.checksum
    · simp [length, same]
    · simp [length, same]
  · simp [length]

namespace StoreCall

/-! ### The ways out

From each phase in which a store has failed or has everything it takes three steps at most, and
`settle` is three steps.
-/

variable {e e' : Endpoint} {now : Moment} {c : StoreCall}

theorem step_finished {result : Except Failure String} (h : c.phase = .finished result) :
    c.step e now = (e, c) := by
  unfold step
  rw [h]

/-- A call that is over stays over. -/
theorem settle_finished {result : Except Failure String} (h : c.phase = .finished result) :
    c.settle e now = (e, c) := by
  simp only [settle, step_finished h]

/-- A store that gives up lets go of its lock and is over. -/
theorem settle_givingUp {failure : Failure} (h : c.phase = .givingUp failure) :
    c.settle e now
      = (e.disposeLock c.name c.client (e.fileExists c.name), c.fail failure) := by
  have first : c.step e now = (e, c.goTo (.disposing failure (e.fileExists c.name))) := by
    unfold step
    rw [h]
  rw [settle, first]
  rfl

theorem settle_disposing {failure : Failure} {present : Bool}
    (h : c.phase = .disposing failure present) :
    c.settle e now = (e.disposeLock c.name c.client present, c.fail failure) := by
  have first : c.step e now = (e.disposeLock c.name c.client present, c.fail failure) := by
    unfold step
    rw [h]
  rw [settle, first]
  rfl

/-- Content that is not what was announced is thrown away. -/
theorem settle_reject (c : StoreCall) (e : Endpoint) (now : Moment) (intake : Intake)
    (failure : Failure) :
    let (e₁, c₁) := c.reject e intake failure
    ∃ e₂, c₁.settle e₁ now = (e₂, c.fail failure) ∧
      e₂.mount = e.mount.drop intake.temporary ∧ e.Disposed c.name c.client e₂ := by
  dsimp only [reject]
  have finished : (c.goTo (.givingUp failure)).phase = .givingUp failure := rfl
  rw [settle_givingUp finished]
  exact ⟨_, rfl, rfl, _, rfl⟩

/-- Content that cannot be put in place is thrown away. -/
theorem settle_complete_refused (c : StoreCall) (e : Endpoint) (now : Moment) {intake : Intake}
    {fault : IoFault}
    (refused : e.mount.install intake.temporary c.name intake.content intake.written
      = .error fault) :
    ∃ e₂, (c.goTo (.complete intake)).settle e now = (e₂, c.fail (.io fault)) ∧
      e₂.mount = e.mount.drop intake.temporary ∧ e.Disposed c.name c.client e₂ := by
  have first : (c.goTo (.complete intake)).step e now
      = (c.goTo (.complete intake)).reject e intake (.io fault) := by
    show (c.goTo (.complete intake)).installContent e intake = _
    unfold installContent
    split
    · rename_i same
      rw [refused.symm.trans same |> Except.error.inj]
    · rename_i ok
      exact nomatch refused.symm.trans ok
  obtain ⟨e₁, h₁⟩ : ∃ e₁, e₁ = (e.withMount (e.mount.drop intake.temporary)).count countRejected :=
    ⟨_, rfl⟩
  have rejected : (c.goTo (.complete intake)).reject e intake (.io fault)
      = (e₁, c.goTo (.givingUp (.io fault))) := by rw [h₁]; rfl
  refine ⟨e₁.disposeLock c.name c.client (e₁.fileExists c.name), ?_, ?_, ?_⟩
  · rw [settle, first, rejected]
    rfl
  · rw [h₁]
    rfl
  · rw [h₁]
    exact ⟨_, rfl⟩

/-- Content that is put in place stays there, and the owner of the lock gives it back. -/
theorem settle_complete (c : StoreCall) (e : Endpoint) (now : Moment) {intake : Intake} {m : Mount}
    (installed : e.mount.install intake.temporary c.name intake.content intake.written = .ok m)
    (owner : e.locks.ownerOf c.name = some c.client) :
    ∃ e₂, (c.goTo (.complete intake)).settle e now = (e₂, c.goTo (.finished (.ok c.name))) ∧
      e₂.mount = m ∧ e.Disposed c.name c.client e₂ := by
  have first : (c.goTo (.complete intake)).step e now
      = (e.withMount m, c.goTo (.installed intake.received)) := by
    show (c.goTo (.complete intake)).installContent e intake = _
    unfold installContent
    split
    · rename_i fault
      exact nomatch installed.symm.trans fault
    · rename_i same
      rw [← Except.ok.inj (installed.symm.trans same)]
      rfl
  have released : e.locks.release c.name c.client = ((e.locks.release c.name c.client).1, true) :=
    Prod.ext rfl (LockTable.release_of_owner owner)
  obtain ⟨e₂, second, mount, locks⟩ : ∃ e₂ : Endpoint,
      (c.goTo (.installed intake.received)).step (e.withMount m) now
        = (e₂, c.goTo (.finished (.ok c.name))) ∧
      e₂.mount = m ∧ e₂.locks = (e.locks.release c.name c.client).1 := by
    refine ⟨(((e.withMount m).count (countCompleted intake.received)).withLocks
      (e.locks.release c.name c.client).1).announce c.name .stored, ?_, rfl, rfl⟩
    show (c.goTo (.installed intake.received)).conclude (e.withMount m) intake.received = _
    have same : ((e.withMount m).count (countCompleted intake.received)).locks.release
        (c.goTo (.installed intake.received)).name (c.goTo (.installed intake.received)).client
          = ((e.locks.release c.name c.client).1, true) := released
    unfold conclude
    dsimp only
    rw [same]
    rfl
  refine ⟨e₂, ?_, mount, true, locks⟩
  rw [settle, first]
  dsimp only
  rw [second]
  rfl

/-- A call that is over takes nothing of its stream. -/
theorem drink_eq_of_finished (e : Endpoint) (now : Moment) {result : Except Failure String}
    (h : c.phase = .finished result) (stream : List Arrival) :
    c.drink e now stream = (e, c, stream) := by
  have waits : c.isReceiving = false := by rw [isReceiving, h]
  cases stream with
  | nil =>
      have taken : c.take e now .late = (e, c) := by
        unfold take
        rw [h]
      rw [drink, takeAndSettle, taken]
      dsimp only
      rw [settle_finished h]
  | cons a rest => rw [drink, waits, if_neg Bool.false_ne_true]

theorem drink_finished (e : Endpoint) (now : Moment) {result : Except Failure String}
    (h : c.phase = .finished result) (stream : List Arrival) :
    ∃ left, c.drink e now stream = (e, c, left) :=
  ⟨stream, drink_eq_of_finished e now h stream⟩

/-! ### While content comes in

`Receiving` is the invariant: besides the temporary file nothing has changed since the call came.
-/

/-- A store that has received some content; nothing else has changed since it came. -/
structure Receiving (e₀ : Endpoint) (h : StoreHeader) (now : UnixTime) (e : Endpoint)
    (c : StoreCall) (intake : Intake) : Prop where
  phase : c.phase = .receiving intake
  header : c.header = h
  opened : e₀.mount.Opened intake.temporary e.mount
  locks : e.locks = e₀.locks
  received : intake.received = intake.content.length
  crc : intake.crc = Crc.fresh.update intake.content
  written : intake.written = now

variable {e₀ : Endpoint} {h : StoreHeader} {intake : Intake}

namespace Receiving

theorem isReceiving {t : UnixTime} (r : Receiving e₀ h t e c intake) : c.isReceiving = true := by
  rw [StoreCall.isReceiving, r.phase]

/-- Whatever makes a store throw away its content, it ends with the mount as it was. -/
theorem rejected {t : UnixTime} (r : Receiving e₀ h t e c intake) {a : Arrival} {failure : Failure}
    (take : c.take e now a = c.reject e intake failure) :
    ∃ e', c.takeAndSettle e now a = (e', c.fail failure) ∧ e₀.Unstored h e' := by
  obtain ⟨e₂, settled, mount, present, locks⟩ := c.settle_reject e now intake failure
  refine ⟨e₂, ?_, ?_, present, ?_⟩
  · rw [takeAndSettle, take]
    exact settled
  · have dropped := r.opened.drop
    rwa [mount]
  · rw [locks, r.locks, StoreCall.name, StoreCall.client, r.header]

/-- A piece that fits is added to what has arrived. -/
theorem accept (r : Receiving e₀ h now.calendar e c intake) (piece : Bytes)
    (fits : ¬ c.header.size.toNat < intake.received + piece.length) :
    ∃ c', c.takeAndSettle e now (.chunk piece) = (e, c') ∧
      Receiving e₀ h now.calendar e c' (intake.accept piece now.calendar) := by
  have taken : c.take e now (.chunk piece)
      = (e, c.goTo (.receiving (intake.accept piece now.calendar))) := by
    unfold take
    rw [r.phase]
    exact if_neg fits
  refine ⟨c.goTo (.receiving (intake.accept piece now.calendar)), ?_, ?_⟩
  · rw [takeAndSettle, taken]
    rfl
  · exact {
      phase := rfl
      header := r.header
      opened := r.opened
      locks := r.locks
      received := Intake.received_accept r.received piece now.calendar
      crc := Intake.crc_accept r.crc piece now.calendar
      written := by
        rw [Intake.accept]
        split
        · exact r.written
        · rfl }

/-- The content is as announced exactly if its length and its checksum are. -/
theorem mismatch_eq_none_iff {t : UnixTime} (r : Receiving e₀ h t e c intake) :
    intake.mismatch h = none ↔
      intake.content.length = h.size.toNat ∧ checksum intake.content = h.checksum :=
  intake.mismatch_eq_none_iff h r.received r.crc

/-- What is as announced is put in place, unless there is a directory. -/
theorem ended (r : Receiving e₀ h now.calendar e c intake)
    (owner : e₀.locks.ownerOf h.name = some h.client) :
    ∃ e' result, c.takeAndSettle e now .ended = (e', c.goTo (.finished result)) ∧
      e₀.Ends h now.calendar (some intake.content) e' result := by
  have name : c.name = h.name := by rw [StoreCall.name, r.header]
  have client : c.client = h.client := by rw [StoreCall.client, r.header]
  cases mismatch : intake.mismatch h with
  | some failure =>
      have taken : c.take e now .ended = c.reject e intake failure := by
        simp only [take, r.phase, r.header, mismatch]
      obtain ⟨e', ends, unstored⟩ := r.rejected taken
      refine ⟨e', .error failure, ends, .unstored ?_ unstored⟩
      intro content is fulfilled
      cases is
      rw [r.mismatch_eq_none_iff.2 ⟨fulfilled.length, fulfilled.checksum⟩] at mismatch
      exact nomatch mismatch
  | none =>
      have taken : c.take e now .ended = (e, c.goTo (.complete intake)) := by
        simp only [take, r.phase, r.header, mismatch]
      obtain ⟨length, sum⟩ := r.mismatch_eq_none_iff.1 mismatch
      rw [takeAndSettle, taken]
      dsimp only
      by_cases directory : e₀.mount.get? (.text h.name) = some .directory
      · have refused := r.opened.install_directory directory intake.content intake.written
        rw [← name] at refused
        obtain ⟨e', ends, mount, present, locks⟩ := c.settle_complete_refused e now refused
        refine ⟨e', .error (.io .isDirectory), ends, .unstored ?_ ⟨?_, present, ?_⟩⟩
        · intro content is fulfilled
          exact fulfilled.free directory
        · have dropped := r.opened.drop
          rwa [mount]
        · rw [locks, r.locks, name, client]
      · obtain ⟨m, installed, placed⟩ :=
          r.opened.install directory intake.content intake.written
        rw [← name] at installed
        have owner' : e.locks.ownerOf c.name = some c.client := by rw [r.locks, name, client, owner]
        obtain ⟨e', ends, mount, present, locks⟩ := c.settle_complete e now installed owner'
        rw [name] at ends
        refine ⟨e', .ok h.name, ends, .stored ⟨⟨length, sum, directory⟩, ?_, present, ?_⟩⟩
        · rw [mount, ← r.written]
          exact placed
        · rw [locks, r.locks, name, client]

/-- Whatever the stream brings, the store ends by it. -/
theorem drink (owner : e₀.locks.ownerOf h.name = some h.client) :
    ∀ (stream : List Arrival) {c : StoreCall} {intake : Intake},
      Receiving e₀ h now.calendar e c intake →
        ∃ e' c' rest result, c.drink e now stream = (e', c', rest) ∧ c'.result? = some result ∧
          e₀.Ends h now.calendar ((Arrival.contentOf? stream).map (intake.content ++ ·)) e'
            result := by
  intro stream
  -- The store is still receiving before each part that it takes; the content so far grows.
  induction stream with
  | nil =>
      intro c intake r
      have late : c.take e now .late = c.reject e intake .deadlineExceeded := by
        unfold take
        rw [r.phase]
      obtain ⟨e', ends, unstored⟩ := r.rejected late
      refine ⟨e', c.fail .deadlineExceeded, [], .error .deadlineExceeded, ?_, rfl, ?_⟩
      · rw [StoreCall.drink, ends]
      · exact .unstored (by nofun) unstored
  | cons a rest ih =>
      intro c intake r
      have thrown : ∀ failure, c.take e now a = c.reject e intake failure →
          (∀ content ∈ (Arrival.contentOf? (a :: rest)).map (intake.content ++ ·),
            ¬ h.Fulfilled e₀.mount content) →
          ∃ e' c' left result, c.drink e now (a :: rest) = (e', c', left) ∧
            c'.result? = some result ∧ e₀.Ends h now.calendar
              ((Arrival.contentOf? (a :: rest)).map (intake.content ++ ·)) e' result := by
        intro failure rejects unfulfilled
        obtain ⟨e', ends, unstored⟩ := r.rejected rejects
        have finished : (c.fail failure).phase = .finished (.error failure) := rfl
        obtain ⟨left, drunk⟩ := drink_finished e' now finished rest
        refine ⟨e', c.fail failure, left, .error failure, ?_, rfl, .unstored unfulfilled unstored⟩
        rw [StoreCall.drink, if_pos r.isReceiving, ends]
        exact drunk
      cases a with
      | chunk piece =>
          by_cases long : c.header.size.toNat < intake.received + piece.length
          · refine thrown (.oversized c.header.size) ?_ ?_
            · unfold take
              rw [r.phase]
              exact if_pos long
            · intro content brought fulfilled
              rw [Arrival.contentOf?, Option.map_map] at brought
              obtain ⟨more, -, rfl⟩ := Option.map_eq_some_iff.1 brought
              have length := fulfilled.length
              simp only [Function.comp_apply, List.length_append] at length
              rw [r.header, r.received] at long
              omega
          · obtain ⟨c', taken, r'⟩ := r.accept piece long
            obtain ⟨e', c'', left, result, drunk, finished, ends⟩ := ih r'
            refine ⟨e', c'', left, result, ?_, finished, ?_⟩
            · rw [StoreCall.drink, if_pos r.isReceiving, taken]
              exact drunk
            · rw [Intake.content_accept] at ends
              rw [Arrival.contentOf?, Option.map_map]
              simpa [Function.comp_def] using ends
      | ended =>
          obtain ⟨e', result, ends, how⟩ := r.ended owner
          have finished : (c.goTo (.finished result)).phase = .finished result := rfl
          obtain ⟨left, drunk⟩ := drink_finished e' now finished rest
          refine ⟨e', c.goTo (.finished result), left, result, ?_, rfl, ?_⟩
          · rw [StoreCall.drink, if_pos r.isReceiving, ends]
            exact drunk
          · simpa [Arrival.contentOf?] using how
      | refused failure =>
          refine thrown failure ?_ (by nofun)
          unfold take
          rw [r.phase]
      | broken failure =>
          refine thrown failure ?_ (by nofun)
          unfold take
          rw [r.phase]
      | late =>
          refine thrown .deadlineExceeded ?_ (by nofun)
          unfold take
          rw [r.phase]

end Receiving

/-! ### Up to the stream

The first look and the comparison are taken at two moments, so a deadline may pass in between.
-/

/-- Whether a store gets as far as its stream: who calls may, in time, and the copy that is there
is to be replaced. -/
structure Takes (e : Endpoint) (h : StoreHeader) (deadline : Deadline) (s : Schedule) : Prop where
  accepted : Mount.accepts h.name = true
  arrival : deadline.isExpired s.arrival.instant = false
  owner : e.locks.ownerOf h.name = some h.client
  found : ∃ found, e.mount.statFile h.name = .ok found ∧
    resolve .store (found.map FileRecord.version) h.version = .proceed
  decision : deadline.isExpired s.decision.instant = false
  entered : e.mount.enter = .ok ()

section

variable {deadline : Deadline} {s : Schedule}

/-- A call that is over once it has looked at its caller and compared the copies. -/
theorem enter_eq (first : (begin h deadline).step e s.arrival = (e, c)) :
    (begin h deadline).enter e s
      = (c.step e s.decision).2.settle (c.step e s.decision).1 s.transfer := by
  rw [enter, first]

/-- The owner of the lock gets past the first look. -/
theorem step_begin_of_owner (accepted : Mount.accepts h.name = true)
    (arrival : deadline.isExpired s.arrival.instant = false)
    (owner : e.locks.ownerOf h.name = some h.client) :
    (begin h deadline).step e s.arrival = (e, (begin h deadline).goTo .owner) := by
  show (e, (begin h deadline).checkCaller e s.arrival) = _
  have accepted' : Mount.checkName (begin h deadline).name = .ok () := if_pos accepted
  have intime : (begin h deadline).deadline.isExpired s.arrival.instant = false := arrival
  have owner' : e.locks.isOwner (begin h deadline).name (begin h deadline).client = true :=
    LockTable.isOwner_iff.2 owner
  unfold checkCaller
  rw [accepted']
  dsimp only
  rw [intime, owner']
  rfl

/-- A copy that is to be replaced is replaced. -/
theorem decideCopy_of_proceed {c : StoreCall} {now : Moment} {found : Option FileRecord}
    (stat : e.mount.statFile c.name = .ok found)
    (proceeds : resolve .store (found.map FileRecord.version) c.header.version = .proceed)
    (decision : c.deadline.isExpired now.instant = false) :
    c.decideCopy e now = (e, c.goTo .opening) := by
  unfold decideCopy
  rw [stat]
  dsimp only
  rw [proceeds]
  dsimp only
  rw [decision]
  rfl

theorem enter_of_takes (takes : Takes e h deadline s) :
    ∃ e' c', (begin h deadline).enter e s = (e', c') ∧
      ∃ temporary, Receiving e h s.transfer.calendar e' c'
        (.fresh temporary s.transfer.calendar) := by
  obtain ⟨found, stat, proceeds⟩ := takes.found
  obtain ⟨⟨m, temporary⟩, made⟩ := Mount.createPartial_of_enter takes.entered s.transfer.calendar
  have first := step_begin_of_owner takes.accepted takes.arrival takes.owner
  have second : ((begin h deadline).goTo .owner).step e s.decision
      = (e, (begin h deadline).goTo .opening) :=
    decideCopy_of_proceed stat proceeds takes.decision
  have third : ((begin h deadline).goTo .opening).step e s.transfer
      = (e.withMount m, (begin h deadline).goTo
          (.receiving (.fresh temporary s.transfer.calendar))) := by
    show ((begin h deadline).goTo .opening).openPartial e s.transfer = _
    rw [openPartial, made]
    rfl
  refine ⟨e.withMount m,
    (begin h deadline).goTo (.receiving (.fresh temporary s.transfer.calendar)), ?_, temporary, ?_⟩
  · rw [enter_eq first, second]
    dsimp only
    rw [settle, third]
    rfl
  · exact {
      phase := rfl
      header := rfl
      opened := Mount.opened_of_createPartial made
      locks := rfl
      received := rfl
      crc := rfl
      written := rfl }

/-- A store that has failed and has nothing left to do but to let go of its lock. -/
def Failing (c : StoreCall) : Prop :=
  ∃ failure, c.phase = .givingUp failure ∨ (∃ present, c.phase = .disposing failure present) ∨
    c.phase = .finished (.error failure)

theorem settle_of_failing (failing : c.Failing) :
    (c.settle e now).1.mount = e.mount ∧
      ∃ failure, (c.settle e now).2.phase = .finished (.error failure) := by
  obtain ⟨failure, givingUp | ⟨present, disposing⟩ | finished⟩ := failing
  · rw [settle_givingUp givingUp]
    exact ⟨rfl, failure, rfl⟩
  · rw [settle_disposing disposing]
    exact ⟨rfl, failure, rfl⟩
  · rw [settle_finished finished]
    exact ⟨rfl, failure, finished⟩

/-- A call that does not get past its first look has failed by the second step. -/
theorem failing_of_begin
    (refused : ¬ (Mount.accepts h.name = true ∧ deadline.isExpired s.arrival.instant = false ∧
      e.locks.ownerOf h.name = some h.client)) :
    ∃ c', (begin h deadline).step e s.arrival = (e, c') ∧ (c'.step e s.decision).1 = e ∧
      (c'.step e s.decision).2.Failing := by
  have finished : ∀ failure, ((begin h deadline).fail failure).step e s.decision
      = (e, (begin h deadline).fail failure) := fun failure => rfl
  refine ⟨(begin h deadline).checkCaller e s.arrival, rfl, ?_⟩
  unfold checkCaller
  cases accepted : Mount.checkName (begin h deadline).name with
  | error failure => exact ⟨rfl, failure, Or.inr (Or.inr rfl)⟩
  | ok u =>
      dsimp only
      have accepted' : Mount.accepts h.name = true := by
        by_cases yes : Mount.accepts h.name = true
        · exact yes
        · have refuses : Mount.checkName (begin h deadline).name = .error (.invalidName h.name) :=
            if_neg yes
          exact nomatch refuses.symm.trans accepted
      by_cases late : (begin h deadline).deadline.isExpired s.arrival.instant = true
      · rw [if_pos late]
        by_cases owner : e.locks.isOwner (begin h deadline).name (begin h deadline).client = true
        · have gives : ((begin h deadline).goTo .expired).step e s.decision
              = (e, (begin h deadline).goTo (.givingUp .deadlineExceeded)) := if_pos owner
          rw [gives]
          exact ⟨rfl, _, Or.inl rfl⟩
        · have fails : ((begin h deadline).goTo .expired).step e s.decision
              = (e, (begin h deadline).fail .deadlineExceeded) := if_neg owner
          rw [fails]
          exact ⟨rfl, _, Or.inr (Or.inr rfl)⟩
      · rw [if_neg late]
        by_cases owner : e.locks.isOwner (begin h deadline).name (begin h deadline).client = true
        · exact absurd ⟨accepted', Bool.not_eq_true _ ▸ late, LockTable.isOwner_iff.1 owner⟩ refused
        · rw [if_neg owner, finished]
          exact ⟨rfl, _, Or.inr (Or.inr rfl)⟩

/-- A call that compares the copies and does not go on has failed. -/
theorem failing_of_decideCopy (c : StoreCall) (now : Moment)
    (refused : ¬ ∃ found, e.mount.statFile c.name = .ok found ∧
      resolve .store (found.map FileRecord.version) c.header.version = .proceed ∧
        c.deadline.isExpired now.instant = false) :
    (c.decideCopy e now).1.mount = e.mount ∧ (c.decideCopy e now).2.Failing := by
  unfold decideCopy
  cases stat : e.mount.statFile c.name with
  | error failure => exact ⟨rfl, failure, Or.inl rfl⟩
  | ok found =>
      dsimp only
      cases resolved : resolve .store (found.map FileRecord.version) c.header.version with
      | alreadySynced => exact ⟨rfl, _, Or.inr (Or.inl ⟨_, rfl⟩)⟩
      | staleSource => exact ⟨rfl, _, Or.inr (Or.inl ⟨_, rfl⟩)⟩
      | proceed =>
          dsimp only
          by_cases late : c.deadline.isExpired now.instant = true
          · rw [if_pos late]
            exact ⟨rfl, _, Or.inl rfl⟩
          · exact absurd ⟨found, stat, resolved, Bool.not_eq_true _ ▸ late⟩ refused

/-- A store that does not get as far as its stream is over and leaves the mount alone. -/
theorem enter_of_not_takes (refused : ¬ Takes e h deadline s) :
    ((begin h deadline).enter e s).1.mount = e.mount ∧
      ∃ failure, ((begin h deadline).enter e s).2.phase = .finished (.error failure) := by
  by_cases looked : Mount.accepts h.name = true ∧ deadline.isExpired s.arrival.instant = false ∧
      e.locks.ownerOf h.name = some h.client
  · obtain ⟨accepted, arrival, owner⟩ := looked
    rw [enter_eq (step_begin_of_owner accepted arrival owner)]
    by_cases decided : ∃ found, e.mount.statFile h.name = .ok found ∧
        resolve .store (found.map FileRecord.version) h.version = .proceed ∧
          deadline.isExpired s.decision.instant = false
    · obtain ⟨found, stat, proceeds, decision⟩ := decided
      have second : ((begin h deadline).goTo .owner).step e s.decision
          = (e, (begin h deadline).goTo .opening) := decideCopy_of_proceed stat proceeds decision
      rw [second]
      dsimp only
      -- All that is left to go wrong is the directory of the temporary file.
      cases made : e.mount.createPartial s.transfer.calendar with
      | ok r =>
          obtain ⟨m, temporary⟩ := r
          exact absurd ⟨accepted, arrival, owner, ⟨found, stat, proceeds⟩, decision,
            Mount.enter_of_createPartial made⟩ refused
      | error fault =>
          have third : ((begin h deadline).goTo .opening).step e s.transfer
              = (e.count countRejected, (begin h deadline).goTo (.givingUp (.io fault))) := by
            show ((begin h deadline).goTo .opening).openPartial e s.transfer = _
            rw [openPartial, made]
            rfl
          rw [settle, third]
          exact ⟨rfl, _, rfl⟩
    · have second : ((begin h deadline).goTo .owner).step e s.decision
          = ((begin h deadline).goTo .owner).decideCopy e s.decision := rfl
      obtain ⟨mount, failing⟩ := failing_of_decideCopy ((begin h deadline).goTo .owner) s.decision
        decided
      rw [second]
      obtain ⟨same, finished⟩ := settle_of_failing failing
      exact ⟨same.trans mount, finished⟩
  · obtain ⟨c', first, mount, failing⟩ := failing_of_begin looked
    rw [enter_eq first, mount]
    exact settle_of_failing failing

/-- If the copies are the same, a store only lets go of its lock. -/
theorem enter_of_upToDate {record : FileRecord} (accepted : Mount.accepts h.name = true)
    (arrival : deadline.isExpired s.arrival.instant = false)
    (owner : e.locks.ownerOf h.name = some h.client)
    (stat : e.mount.statFile h.name = .ok (some record)) (same : record.checksum = h.checksum) :
    ∃ e', (begin h deadline).enter e s
        = (e', (begin h deadline).fail (.upToDateOnServer h.name)) ∧
      e'.mount = e.mount ∧ e.Disposed h.name h.client e' := by
  have resolved : resolve .store ((some record).map FileRecord.version) h.version
      = .alreadySynced := if_pos same
  have second : ((begin h deadline).goTo .owner).step e s.decision
      = (e.count countRejected,
        (begin h deadline).goTo (.disposing (.upToDateOnServer h.name) true)) := by
    show ((begin h deadline).goTo .owner).decideCopy e s.decision = _
    have stat' : e.mount.statFile ((begin h deadline).goTo .owner).name = .ok (some record) := stat
    have resolved' : resolve .store ((some record).map FileRecord.version)
        ((begin h deadline).goTo .owner).header.version = .alreadySynced := resolved
    unfold decideCopy
    rw [stat']
    dsimp only
    rw [resolved']
    rfl
  have disposing : ((begin h deadline).goTo (.disposing (.upToDateOnServer h.name) true)).phase
      = .disposing (.upToDateOnServer h.name) true := rfl
  refine ⟨(e.count countRejected).disposeLock h.name h.client true, ?_, rfl, true, rfl⟩
  rw [enter_eq (step_begin_of_owner accepted arrival owner), second]
  exact settle_disposing disposing

end

end StoreCall

namespace Endpoint

variable {e e' : Endpoint} {h : StoreHeader} {deadline : Deadline} {s : Schedule}

/-- Nobody owns the lock of a call that has let go of it. -/
theorem Disposed.ownerOf {name : String} {client : ClientId}
    (owner : e.locks.ownerOf name = some client) (d : e.Disposed name client e') :
    e'.locks.ownerOf name = none := by
  obtain ⟨present, locks⟩ := d
  rw [locks, LockTable.releaseOrDelete]
  cases present with
  | true =>
      rw [if_pos rfl, LockTable.ownerOf_release, if_pos owner]
  | false =>
      rw [if_neg Bool.false_ne_true, LockTable.ownerOf_delete, if_pos owner]

/-- A store goes up to its stream, and takes it. -/
theorem storeFrom_eq (e : Endpoint) (h : StoreHeader) (d : Deadline) (t : Schedule)
    (stream : List Arrival) {r : Endpoint × StoreCall} (entered : (StoreCall.begin h d).enter e t = r)
    {x : Endpoint × StoreCall × List Arrival} (drunk : r.2.drink r.1 t.transfer stream = x) :
    e.storeFrom h d t stream = (x.1, x.2.1.result?.getD (.error .deadlineExceeded), x.2.2) := by
  rw [storeFrom, entered]
  dsimp only
  rw [drunk]

/-- A store that gets as far as its stream ends by what the stream brings. -/
theorem storeFrom_of_takes (takes : StoreCall.Takes e h deadline s) (stream : List Arrival) :
    ∃ e' result rest, e.storeFrom h deadline s stream = (e', result, rest) ∧
      e.Ends h s.transfer.calendar (Arrival.contentOf? stream) e' result := by
  obtain ⟨e₁, c₁, entered, temporary, receiving⟩ := StoreCall.enter_of_takes takes
  obtain ⟨e', c', rest, result, drunk, finished, ends⟩ := receiving.drink takes.owner stream
  refine ⟨e', result, rest, ?_, ?_⟩
  · rw [storeFrom, entered]
    dsimp only
    rw [drunk]
    dsimp only
    rw [finished]
    rfl
  · simpa using ends

/-- A store that does not get as far as its stream leaves the mount alone. -/
theorem storeFrom_of_not_takes (refused : ¬ StoreCall.Takes e h deadline s)
    (stream : List Arrival) :
    ∃ e' failure rest, e.storeFrom h deadline s stream = (e', .error failure, rest) ∧
      e'.mount = e.mount := by
  obtain ⟨mount, failure, finished⟩ := StoreCall.enter_of_not_takes refused
  obtain ⟨rest, drunk⟩ := StoreCall.drink_finished
    ((StoreCall.begin h deadline).enter e s).1 s.transfer finished stream
  refine ⟨_, failure, rest, ?_, mount⟩
  rw [storeFrom]
  dsimp only
  rw [drunk]
  dsimp only
  rw [StoreCall.result?, finished]
  rfl

/-- If the copies are the same, a store says so and lets go of its lock. -/
theorem storeFrom_of_upToDate {record : FileRecord} (accepted : Mount.accepts h.name = true)
    (arrival : deadline.isExpired s.arrival.instant = false)
    (owner : e.locks.ownerOf h.name = some h.client)
    (stat : e.mount.statFile h.name = .ok (some record)) (same : record.checksum = h.checksum)
    (stream : List Arrival) :
    ∃ e' rest, e.storeFrom h deadline s stream = (e', .error (.upToDateOnServer h.name), rest) ∧
      e'.mount = e.mount ∧ e.Disposed h.name h.client e' := by
  obtain ⟨e', entered, mount, disposed⟩ :=
    StoreCall.enter_of_upToDate accepted arrival owner stat same
  have finished : ((StoreCall.begin h deadline).fail (.upToDateOnServer h.name)).phase
      = .finished (.error (.upToDateOnServer h.name)) := rfl
  obtain ⟨rest, drunk⟩ := StoreCall.drink_finished e' s.transfer finished stream
  refine ⟨e', rest, ?_, mount, disposed⟩
  rw [storeFrom, entered]
  dsimp only
  rw [drunk]
  rfl

end Endpoint

end MountSync
