/-
The same store on two endpoints.

The temporary file of a store has another name and another number on each of them, but the store
asks for neither: while content comes in, both have received the same, and the mounts are what they
were but for that file.  If the content is put in place in the end, the entry is the same on both
up to the number of the file and the time at which it was written.  On every other way out the
temporary file is gone, and there is nothing left to tell the two apart.
-/
import MountSync.Proofs.Endpoint.Alone
import MountSync.Proofs.Endpoint.Twin

namespace MountSync

/-- The same entry, or the same file written at another time, and as another file. -/
def Restamped (n₁ n₂ : UnixTime) (a b : Option Node) : Prop :=
  b = a ∨ ∃ x number, a = some (.file x) ∧ x.modified = .atSecond n₁ ∧
    b = some (.file { x with modified := .atSecond n₂, inode := number })

/-- What has arrived on both endpoints: the same, but in other files and at other times. -/
structure Intake.Twins (n₁ n₂ : UnixTime) (i₁ i₂ : Intake) : Prop where
  pieces : i₂.pieces = i₁.pieces
  received : i₂.received = i₁.received
  crc : i₂.crc = i₁.crc
  written₁ : i₁.written = n₁
  written₂ : i₂.written = n₂

namespace Intake.Twins

variable {n₁ n₂ : UnixTime} {i₁ i₂ : Intake}

theorem content (h : Twins n₁ n₂ i₁ i₂) : i₂.content = i₁.content := by
  rw [Intake.content, Intake.content, h.pieces]

theorem mismatch (h : Twins n₁ n₂ i₁ i₂) (header : StoreHeader) :
    i₂.mismatch header = i₁.mismatch header := by
  rw [Intake.mismatch, Intake.mismatch, h.received, h.crc]

theorem accept (h : Twins n₁ n₂ i₁ i₂) (piece : Bytes) :
    Twins n₁ n₂ (i₁.accept piece n₁) (i₂.accept piece n₂) where
  pieces := congrArg (piece :: ·) h.pieces
  received := congrArg (· + piece.length) h.received
  crc := congrArg (·.update piece) h.crc
  written₁ := (ite_congr rfl (fun _ => h.written₁) fun _ => rfl).trans (ite_self _)
  written₂ := (ite_congr rfl (fun _ => h.written₂) fun _ => rfl).trans (ite_self _)

end Intake.Twins

/-! ### The mounts along the way

While the temporary files are there, the mounts are compared without them.
-/

/-- Two mounts with a temporary file each, which are the same without them. -/
structure Mount.Open (f : String) (n₁ n₂ : UnixTime) (m₁ m₂ : Mount) (i₁ i₂ : Intake) : Prop where
  arrived : i₁.Twins n₁ n₂ i₂
  before : ∃ a₁ a₂ : Mount, a₁.Sees f a₂ ∧ a₁.Opened i₁.temporary m₁ ∧ a₂.Opened i₂.temporary m₂

/-- Two mounts of the same place, with the same entry but for when it was written. -/
structure Mount.Similar (f : String) (n₁ n₂ : UnixTime) (m₁ m₂ : Mount) : Prop where
  place : m₂.place = m₁.place
  entry : Restamped n₁ n₂ (m₁.get? (.text f)) (m₂.get? (.text f))

namespace Mount

variable {f : String} {n₁ n₂ : UnixTime} {m₁ m₂ : Mount}

theorem Sees.similar (h : m₁.Sees f m₂) : Similar f n₁ n₂ m₁ m₂ := ⟨h.place, Or.inl h.entry⟩

/-- The same content put in place makes the same entry. -/
theorem Similar.of_placed {a₁ a₂ : Mount} {content : Bytes} (place : a₂.place = a₁.place)
    (h₁ : a₁.Placed n₁ f content m₁) (h₂ : a₂.Placed n₂ f content m₂) :
    Similar f n₁ n₂ m₁ m₂ := by
  obtain ⟨⟨_, _, number₁, _⟩, puts₁, rfl, rfl, rfl⟩ := h₁.entry
  obtain ⟨⟨_, _, number₂, _⟩, puts₂, rfl, rfl, rfl⟩ := h₂.entry
  exact ⟨puts₂.place.trans (place.trans puts₁.place.symm),
    Or.inr ⟨_, number₂, puts₁.entry, rfl, puts₂.entry⟩⟩

/-- A temporary file can be made in both mounts, or in neither for the same reason. -/
theorem Sees.createPartial (h : m₁.Sees f m₂) (n₁ n₂ : UnixTime) :
    (∃ fault, m₁.createPartial n₁ = .error fault ∧ m₂.createPartial n₂ = .error fault) ∨
      ∃ m₁' m₂' τ₁ τ₂, m₁.createPartial n₁ = .ok (m₁', τ₁) ∧ m₂.createPartial n₂ = .ok (m₂', τ₂) ∧
        Open f n₁ n₂ m₁' m₂' (.fresh τ₁ n₁) (.fresh τ₂ n₂) := by
  cases entered : m₁.enter with
  | error fault =>
      refine Or.inl ⟨fault, ?_, ?_⟩
      · rw [Mount.createPartial, entered]
      · rw [Mount.createPartial, h.enter, entered]
  | ok _ =>
      obtain ⟨⟨m₁', τ₁⟩, made₁⟩ := createPartial_of_enter entered n₁
      obtain ⟨⟨m₂', τ₂⟩, made₂⟩ := createPartial_of_enter (h.enter.trans entered) n₂
      exact Or.inr ⟨m₁', m₂', τ₁, τ₂, made₁, made₂, ⟨rfl, rfl, rfl, rfl, rfl⟩, m₁, m₂, h,
        opened_of_createPartial made₁, opened_of_createPartial made₂⟩

namespace Open

variable {i₁ i₂ : Intake}

theorem drop (h : Open f n₁ n₂ m₁ m₂ i₁ i₂) :
    (m₁.drop i₁.temporary).Sees f (m₂.drop i₂.temporary) := by
  obtain ⟨a₁, a₂, sees, opened₁, opened₂⟩ := h.before
  exact sees.same opened₁.drop opened₂.drop

/-- The content can be put in place in both mounts, or in neither for the same reason. -/
theorem install (h : Open f n₁ n₂ m₁ m₂ i₁ i₂) :
    (∃ fault, m₁.install i₁.temporary f i₁.content i₁.written = .error fault ∧
        m₂.install i₂.temporary f i₂.content i₂.written = .error fault) ∨
      ∃ m₁' m₂', m₁.install i₁.temporary f i₁.content i₁.written = .ok m₁' ∧
        m₂.install i₂.temporary f i₂.content i₂.written = .ok m₂' ∧
        Similar f n₁ n₂ m₁' m₂' := by
  obtain ⟨a₁, a₂, sees, opened₁, opened₂⟩ := h.before
  rw [h.arrived.content, h.arrived.written₁, h.arrived.written₂]
  by_cases directory : a₁.get? (.text f) = some .directory
  · exact Or.inl ⟨_, opened₁.install_directory directory _ _,
      opened₂.install_directory (sees.entry.trans directory) _ _⟩
  · obtain ⟨m₁', installed₁, placed₁⟩ := opened₁.install directory i₁.content n₁
    have free : a₂.get? (.text f) ≠ some .directory := fun same =>
      directory (sees.entry.symm.trans same)
    obtain ⟨m₂', installed₂, placed₂⟩ := opened₂.install free i₁.content n₂
    exact Or.inr ⟨m₁', m₂', installed₁, installed₂, .of_placed sees.place placed₁ placed₂⟩

end Open

end Mount

/-! ### Step by step

The phases are the same but for what has arrived, so the cases are those of one store.  Each step is
taken on both endpoints at once, and the endpoints are compared by what the phase says of them.
-/

/-- How far a store has come on both endpoints, and what has become of the mounts. -/
inductive StorePhase.Twins (f : String) (n₁ n₂ : UnixTime) (m₁ m₂ : Mount) :
    StorePhase → StorePhase → Prop
  | looking {phase : StorePhase} : phase.temporary? = none → m₁.Sees f m₂ →
      Twins f n₁ n₂ m₁ m₂ phase phase
  | receiving {i₁ i₂ : Intake} : Mount.Open f n₁ n₂ m₁ m₂ i₁ i₂ →
      Twins f n₁ n₂ m₁ m₂ (.receiving i₁) (.receiving i₂)
  | complete {i₁ i₂ : Intake} : Mount.Open f n₁ n₂ m₁ m₂ i₁ i₂ →
      Twins f n₁ n₂ m₁ m₂ (.complete i₁) (.complete i₂)
  | installed {received : Nat} : Mount.Similar f n₁ n₂ m₁ m₂ →
      Twins f n₁ n₂ m₁ m₂ (.installed received) (.installed received)
  | finished {result : Except Failure String} : Mount.Similar f n₁ n₂ m₁ m₂ →
      Twins f n₁ n₂ m₁ m₂ (.finished result) (.finished result)

namespace StoreCall

/-- A store that has come as far on both endpoints. -/
inductive Twins (h : StoreHeader) (n₁ n₂ : UnixTime) (d₁ d₂ : Deadline) (s₁ s₂ : Endpoint) :
    Endpoint × StoreCall → Endpoint × StoreCall → Prop
  | intro {e₁ e₂ : Endpoint} {p₁ p₂ : StorePhase} : Endpoint.Books h.name s₁ s₂ e₁ e₂ →
      p₁.Twins h.name n₁ n₂ e₁.mount e₂.mount p₂ →
      Twins h n₁ n₂ d₁ d₂ s₁ s₂ (e₁, ⟨h, d₁, p₁⟩) (e₂, ⟨h, d₂, p₂⟩)

variable {h : StoreHeader} {n₁ n₂ : UnixTime} {d₁ d₂ : Deadline} {s₁ s₂ : Endpoint}
  {now₁ now₂ : Moment}

namespace Twins

variable {r₁ r₂ : Endpoint × StoreCall}

/-- A store that looks, on endpoints that are the same to it. -/
theorem looking {e₁ e₂ : Endpoint} {phase : StorePhase}
    (twin : Endpoint.Twin h.name s₁ s₂ e₁ e₂) (none : phase.temporary? = none) :
    Twins h n₁ n₂ d₁ d₂ s₁ s₂ (e₁, ⟨h, d₁, phase⟩) (e₂, ⟨h, d₂, phase⟩) :=
  .intro twin.books (.looking none twin.sees)

/-- A store that throws away what has arrived looks again. -/
theorem reject {e₁ e₂ : Endpoint} {p₁ p₂ : StorePhase} {i₁ i₂ : Intake}
    (books : Endpoint.Books h.name s₁ s₂ e₁ e₂)
    (opened : Mount.Open h.name n₁ n₂ e₁.mount e₂.mount i₁ i₂) (failure : Failure) :
    Twins h n₁ n₂ d₁ d₂ s₁ s₂ ((⟨h, d₁, p₁⟩ : StoreCall).reject e₁ i₁ failure)
      ((⟨h, d₂, p₂⟩ : StoreCall).reject e₂ i₂ failure) := by
  have dropped : Endpoint.Twin h.name s₁ s₂ (e₁.withMount (e₁.mount.drop i₁.temporary))
      (e₂.withMount (e₂.mount.drop i₂.temporary)) := ⟨opened.drop, books.withMount ..⟩
  exact looking (dropped.count (fun | .storesRejected => 1 | _ => 0)
    fun e k => by cases k <;> rfl) rfl

/-- A store that has put its content in place gives back its lock. -/
theorem conclude {e₁ e₂ : Endpoint} {p₁ p₂ : StorePhase}
    (books : Endpoint.Books h.name s₁ s₂ e₁ e₂)
    (similar : Mount.Similar h.name n₁ n₂ e₁.mount e₂.mount) (received : Nat) :
    Twins h n₁ n₂ d₁ d₂ s₁ s₂ ((⟨h, d₁, p₁⟩ : StoreCall).conclude e₁ received)
      ((⟨h, d₂, p₂⟩ : StoreCall).conclude e₂ received) := by
  have counted : Endpoint.Books h.name s₁ s₂ (e₁.count (countCompleted received))
      (e₂.count (countCompleted received)) :=
    books.count (fun | .storesCompleted => 1 | .bytesReceived => received | _ => 0)
      fun e k => by cases k <;> rfl
  dsimp only [StoreCall.conclude, StoreCall.name, StoreCall.client]
  cases first : e₁.locks.release h.name h.client with
  | mk t₁ done =>
      obtain ⟨t₂, second, released⟩ :=
        counted.answered (c := ⟨.release, h.name, h.client⟩) rfl first
      rw [show (e₁.count (countCompleted received)).locks.release h.name h.client = (t₁, done)
        from first, show (e₂.count (countCompleted received)).locks.release h.name h.client
          = (t₂, done) from second]
      cases done with
      | false => exact .intro counted (.finished similar)
      | true => exact .intro (released.announce h.name .stored) (.finished similar)

/-- Who looks at the same sees the same. -/
theorem step_looking (accepted : Mount.accepts h.name = true) {e₁ e₂ : Endpoint}
    (twin : Endpoint.Twin h.name s₁ s₂ e₁ e₂) {phase : StorePhase}
    (none : phase.temporary? = none)
    (check : d₂.isExpired now₂.instant = d₁.isExpired now₁.instant)
    (stamps : phase = .opening → now₁.calendar = n₁ ∧ now₂.calendar = n₂) :
    Twins h n₁ n₂ d₁ d₂ s₁ s₂ ((⟨h, d₁, phase⟩ : StoreCall).step e₁ now₁)
      ((⟨h, d₂, phase⟩ : StoreCall).step e₂ now₂) := by
  have rejected : Endpoint.Twin h.name s₁ s₂ (e₁.count countRejected) (e₂.count countRejected) :=
    twin.count (fun | .storesRejected => 1 | _ => 0) fun e k => by cases k <;> rfl
  have checked : ∀ d, Mount.checkName (⟨h, d, phase⟩ : StoreCall).name = .ok () :=
    fun _ => if_pos accepted
  have owner : e₂.locks.isOwner (⟨h, d₂, phase⟩ : StoreCall).name
      (⟨h, d₂, phase⟩ : StoreCall).client
        = e₁.locks.isOwner (⟨h, d₁, phase⟩ : StoreCall).name
          (⟨h, d₁, phase⟩ : StoreCall).client := twin.books.isOwner h.client
  dsimp only [StoreCall.step]
  cases phase with
  | arrived =>
      dsimp only [checkCaller]
      rw [checked, checked, check, owner]
      dsimp only
      split
      · exact looking twin rfl
      · split <;> exact looking twin rfl
  | expired =>
      dsimp only
      rw [owner]
      split <;> exact looking twin rfl
  | owner =>
      dsimp only [decideCopy, StoreCall.name]
      rw [twin.sees.statFile, check]
      split
      · exact looking twin rfl
      · split
        · exact looking rejected rfl
        · exact looking rejected rfl
        · split <;> exact looking twin rfl
  | opening =>
      obtain ⟨rfl, rfl⟩ := stamps rfl
      dsimp only [openPartial]
      rcases twin.sees.createPartial now₁.calendar now₂.calendar with
        ⟨fault, refused₁, refused₂⟩ | ⟨m₁, m₂, τ₁, τ₂, made₁, made₂, opened⟩
      · rw [refused₁, refused₂]
        exact looking rejected rfl
      · rw [made₁, made₂]
        exact .intro (twin.books.withMount m₁ m₂) (.receiving opened)
  | receiving intake => exact nomatch none
  | complete intake => exact nomatch none
  | installed received => exact conclude twin.books twin.sees.similar received
  | givingUp failure =>
      dsimp only [StoreCall.name]
      rw [twin.fileExists accepted]
      exact looking twin rfl
  | disposing failure present => exact looking (twin.disposeLock h.client present) rfl
  | finished result => exact looking twin rfl

theorem step (accepted : Mount.accepts h.name = true) (twins : Twins h n₁ n₂ d₁ d₂ s₁ s₂ r₁ r₂)
    (check : d₂.isExpired now₂.instant = d₁.isExpired now₁.instant)
    (stamps : r₁.2.phase = .opening → now₁.calendar = n₁ ∧ now₂.calendar = n₂) :
    Twins h n₁ n₂ d₁ d₂ s₁ s₂ (r₁.2.step r₁.1 now₁) (r₂.2.step r₂.1 now₂) := by
  obtain @⟨e₁, e₂, _, _, books, phases⟩ := twins
  cases phases with
  | looking none sees => exact step_looking accepted ⟨sees, books⟩ none check stamps
  | receiving opened => exact .intro books (.receiving opened)
  | complete opened =>
      dsimp only [StoreCall.step, installContent, StoreCall.name]
      rcases opened.install with ⟨fault, refused₁, refused₂⟩ |
        ⟨m₁, m₂, installed₁, installed₂, similar⟩
      · rw [refused₁, refused₂]
        exact reject books opened (.io fault)
      · rw [installed₁, installed₂, opened.arrived.received]
        exact .intro (books.withMount m₁ m₂) (.installed similar)
  | installed similar => exact conclude books similar _
  | finished similar => exact .intro books (.finished similar)

/-- What the stream brings comes to both. -/
theorem take (twins : Twins h n₁ n₂ d₁ d₂ s₁ s₂ r₁ r₂) (stamp₁ : now₁.calendar = n₁)
    (stamp₂ : now₂.calendar = n₂) (a : Arrival) :
    Twins h n₁ n₂ d₁ d₂ s₁ s₂ (r₁.2.take r₁.1 now₁ a) (r₂.2.take r₂.1 now₂ a) := by
  subst stamp₁ stamp₂
  obtain @⟨e₁, e₂, p₁, p₂, books, phases⟩ := twins
  dsimp only [StoreCall.take]
  cases phases with
  | @receiving i₁ i₂ opened =>
      cases a with
      | chunk piece =>
          dsimp only
          rw [opened.arrived.received]
          split
          · exact reject books opened _
          · exact .intro books (.receiving ⟨opened.arrived.accept piece, opened.before⟩)
      | ended =>
          dsimp only
          rw [opened.arrived.mismatch]
          split
          · exact reject books opened _
          · exact .intro books (.complete opened)
      | _ => exact reject books opened _
  | looking none sees =>
      cases p₁ with
      | receiving intake => exact nomatch none
      | _ => exact .intro books (.looking none sees)
  | complete opened => exact .intro books (.complete opened)
  | installed similar => exact .intro books (.installed similar)
  | finished similar => exact .intro books (.finished similar)

/-- Steps at one moment, none of which is too early to write. -/
theorem settle (accepted : Mount.accepts h.name = true)
    (twins : Twins h n₁ n₂ d₁ d₂ s₁ s₂ r₁ r₂)
    (check : d₂.isExpired now₂.instant = d₁.isExpired now₁.instant)
    (stamp₁ : now₁.calendar = n₁) (stamp₂ : now₂.calendar = n₂) :
    Twins h n₁ n₂ d₁ d₂ s₁ s₂ (r₁.2.settle r₁.1 now₁) (r₂.2.settle r₂.1 now₂) := by
  have stamps : ∀ {P : Prop}, P → now₁.calendar = n₁ ∧ now₂.calendar = n₂ := fun _ =>
    ⟨stamp₁, stamp₂⟩
  exact ((twins.step accepted check stamps).step accepted check stamps).step accepted check stamps

theorem isReceiving (twins : Twins h n₁ n₂ d₁ d₂ s₁ s₂ r₁ r₂) :
    r₂.2.isReceiving = r₁.2.isReceiving := by
  obtain ⟨-, phases⟩ := twins
  cases phases <;> rfl

theorem drink_nil (e : Endpoint) (now : Moment) (c : StoreCall) :
    c.drink e now []
      = ((c.takeAndSettle e now .late).1, (c.takeAndSettle e now .late).2, []) := by
  rw [StoreCall.drink]

/-- Both take as much of the stream, and come as far by it. -/
theorem drink (accepted : Mount.accepts h.name = true)
    (check : d₂.isExpired now₂.instant = d₁.isExpired now₁.instant)
    (stamp₁ : now₁.calendar = n₁) (stamp₂ : now₂.calendar = n₂) (stream : List Arrival)
    (twins : Twins h n₁ n₂ d₁ d₂ s₁ s₂ r₁ r₂) :
    Twins h n₁ n₂ d₁ d₂ s₁ s₂ ((r₁.2.drink r₁.1 now₁ stream).map id Prod.fst)
        ((r₂.2.drink r₂.1 now₂ stream).map id Prod.fst) ∧
      (r₂.2.drink r₂.1 now₂ stream).2.2 = (r₁.2.drink r₁.1 now₁ stream).2.2 := by
  have taken : ∀ {r₁ r₂} a, Twins h n₁ n₂ d₁ d₂ s₁ s₂ r₁ r₂ →
      Twins h n₁ n₂ d₁ d₂ s₁ s₂ (r₁.2.takeAndSettle r₁.1 now₁ a)
        (r₂.2.takeAndSettle r₂.1 now₂ a) := fun a twins =>
    (twins.take stamp₁ stamp₂ a).settle accepted check stamp₁ stamp₂
  induction stream generalizing r₁ r₂ with
  | nil =>
      rw [drink_nil, drink_nil]
      exact ⟨taken .late twins, rfl⟩
  | cons a rest ih =>
      rw [StoreCall.drink, StoreCall.drink, twins.isReceiving]
      split
      · exact ih (taken a twins)
      · exact ⟨twins, rfl⟩

end Twins

/-- A store makes its temporary file no sooner than it has compared the copies. -/
theorem checkCaller_not_opening (e : Endpoint) (now : Moment) (c : StoreCall) :
    (c.checkCaller e now).phase ≠ .opening := by
  unfold checkCaller
  split
  · exact nofun
  · split
    · exact nofun
    · split <;> exact nofun

/-- A store that is over has had the same answer on both. -/
theorem Twins.finished {r₁ r₂ : Endpoint × StoreCall} (twins : Twins h n₁ n₂ d₁ d₂ s₁ s₂ r₁ r₂)
    {result : Except Failure String} (ended : r₁.2.phase = .finished result) :
    r₂.2.result? = r₁.2.result? ∧ Endpoint.Books h.name s₁ s₂ r₁.1 r₂.1 ∧
      Mount.Similar h.name n₁ n₂ r₁.1.mount r₂.1.mount := by
  obtain @⟨e₁, e₂, p₁, p₂, books, phases⟩ := twins
  cases ended
  cases phases with
  | looking none sees => exact ⟨rfl, books, sees.similar⟩
  | finished similar => exact ⟨rfl, books, similar⟩

theorem Twins.enter {t₁ t₂ : Schedule} (accepted : Mount.accepts h.name = true) {e₁ e₂ : Endpoint}
    (twin : Endpoint.Twin h.name s₁ s₂ e₁ e₂) (alike : Schedule.Alike d₁ t₁ d₂ t₂) :
    Twins h t₁.transfer.calendar t₂.transfer.calendar d₁ d₂ s₁ s₂
      ((begin h d₁).enter e₁ t₁) ((begin h d₂).enter e₂ t₂) := by
  have arrived : Twins h t₁.transfer.calendar t₂.transfer.calendar d₁ d₂ s₁ s₂
      (e₁, .begin h d₁) (e₂, .begin h d₂) := looking twin rfl
  -- Only the steps at the moment of the transfer may write a time.
  have looked := arrived.step accepted alike.arrival nofun
  have decided := looked.step accepted alike.decision fun opening =>
    absurd opening ((begin h d₁).checkCaller_not_opening e₁ t₁.arrival)
  exact decided.settle accepted alike.transfer rfl rfl

end StoreCall

namespace Endpoint

/-- **A store ends alike on endpoints that are the same to it.** -/
theorem Twin.storeFrom {h : StoreHeader} {s₁ s₂ e₁ e₂ : Endpoint} {d₁ d₂ : Deadline}
    {t₁ t₂ : Schedule} (twin : Twin h.name s₁ s₂ e₁ e₂) (accepted : Mount.accepts h.name = true)
    (alike : Schedule.Alike d₁ t₁ d₂ t₂) (stream : List Arrival) :
    (e₂.storeFrom h d₂ t₂ stream).2 = (e₁.storeFrom h d₁ t₁ stream).2 ∧
      Books h.name s₁ s₂ (e₁.storeFrom h d₁ t₁ stream).1 (e₂.storeFrom h d₂ t₂ stream).1 ∧
      Mount.Similar h.name t₁.transfer.calendar t₂.transfer.calendar
        (e₁.storeFrom h d₁ t₁ stream).1.mount (e₂.storeFrom h d₂ t₂ stream).1.mount := by
  have entered := StoreCall.Twins.enter accepted twin alike
  obtain ⟨drunk, rest⟩ := entered.drink accepted alike.transfer rfl rfl stream
  obtain ⟨result, ended⟩ : ∃ result, (((StoreCall.begin h d₁).enter e₁ t₁).2.drink
      ((StoreCall.begin h d₁).enter e₁ t₁).1 t₁.transfer stream).2.1.phase = .finished result :=
    StoreCall.finished_drink (StoreCall.left_enter e₁ t₁ h d₁)
  obtain ⟨told, books, similar⟩ := drunk.finished ended
  rw [storeFrom_eq e₁ h d₁ t₁ stream rfl rfl, storeFrom_eq e₂ h d₂ t₂ stream rfl rfl]
  exact ⟨Prod.ext (congrArg (Option.getD · _) told) rest, books, similar⟩

end Endpoint

end MountSync
