/-
A client puts a whole file in place, or nothing.

When a fetch succeeds is a matter of what the messages deliver and of the client's own directory.  The
first reply has to be the one that ends a fetch, and up to it there may only be pieces, frames that
bring none, and messages that mean nothing.  There has to be a piece, even of an empty file; all of
them together are as long as the reply says; and a temporary file can be made and be given the name.
Whatever is behind the reply is not looked at.
-/
import MountSync.Proofs.Client.Passing

namespace MountSync

/-! ### What messages deliver

`Deliver` is a language of messages, and is stated without the reader that recognises it.  That the
two agree is shown in both directions, by induction on the messages.
-/

namespace Message

/-- The frame that a message is to a client. -/
def frame? : Message → Option ServerFrame
  | .binary content => (ServerFrame.decode content).toOption
  | _ => none

/-- The piece of a file that a message brings to a client. -/
def content? (m : Message) : Option Bytes :=
  match m.frame? with
  | some (.fetch chunk) => if chunk.copyNeeded then some chunk.content else none
  | _ => none

/-- Whether a client that fetches goes on to the next message. -/
def IsPassed (m : Message) : Prop := m = .other ∨ ∃ chunk, m.frame? = some (.fetch chunk)

/-- Messages that deliver the pieces of a file, up to the reply that tells how many bytes they
have. -/
def Deliver (messages : List Message) (pieces : List Bytes) (bytes : UInt64) : Prop :=
  ∃ (before : List Message) (last : Message) (behind : List Message),
    messages = before ++ last :: behind ∧ (∀ m ∈ before, m.IsPassed) ∧
      before.filterMap content? = pieces ∧ last.frame? = some (.reply (.fetched bytes))

variable {m : Message} {messages : List Message} {pieces : List Bytes} {bytes : UInt64}

theorem frame?_binary {content : Bytes} {frame : ServerFrame}
    (h : ServerFrame.decode content = .ok frame) : (binary content).frame? = some frame := by
  rw [frame?, h]
  rfl

theorem decode_of_frame? {frame : ServerFrame} (h : m.frame? = some frame) :
    ∃ content, m = .binary content ∧ ServerFrame.decode content = .ok frame := by
  cases m with
  | binary content =>
      refine ⟨content, rfl, ?_⟩
      rw [frame?] at h
      cases read : ServerFrame.decode content with
      | error fault =>
          rw [read] at h
          exact nomatch h
      | ok frame' =>
          rw [read] at h
          exact congrArg Except.ok (Option.some.inj h)
  | _ => exact nomatch h

/-- A message that is passed puts its piece, if it brings one, before the others. -/
theorem Deliver.cons (h : Deliver messages pieces bytes) (passed : m.IsPassed) :
    Deliver (m :: messages) (m.content?.toList ++ pieces) bytes := by
  obtain ⟨before, last, behind, rfl, others, rfl, reply⟩ := h
  refine ⟨m :: before, last, behind, rfl, List.forall_mem_cons.2 ⟨passed, others⟩, ?_, reply⟩
  cases brought : m.content? with
  | none => exact List.filterMap_cons_none brought
  | some piece => exact List.filterMap_cons_some brought

theorem fetched?_passed (passed : m.IsPassed) :
    fetched? (m :: messages) =
      (fetched? messages).map fun r => (m.content?.toList ++ r.1, r.2) := by
  rcases passed with rfl | ⟨chunk, fetch⟩
  · exact Option.map_id'.symm
  · have brings : m.content? = if chunk.copyNeeded then some chunk.content else none := by
      rw [content?, fetch]
    obtain ⟨content, rfl, read⟩ := decode_of_frame? fetch
    rw [fetched?, read, brings]
    dsimp only
    cases chunk.copyNeeded
    · exact Option.map_id'.symm
    · rfl

theorem deliver_of_fetched? (h : fetched? messages = some (pieces, bytes)) :
    Deliver messages pieces bytes := by
  induction messages generalizing pieces with
  | nil => cases h
  | cons m rest ih =>
      -- Where the message is passed, what it brings comes before what the rest delivers.
      have go : m.IsPassed → Deliver (m :: rest) pieces bytes := by
        intro passed
        rw [fetched?_passed passed] at h
        obtain ⟨r, brought, same⟩ := Option.map_eq_some_iff.1 h
        cases same
        exact (ih brought).cons passed
      cases m with
      | other => exact go (Or.inl rfl)
      | close => cases h
      | broken reason => cases h
      | binary content =>
          rw [fetched?] at h
          cases read : ServerFrame.decode content with
          | error fault =>
              rw [read] at h
              cases h
          | ok frame =>
              have is := frame?_binary read
              cases frame with
              | fetch chunk => exact go (Or.inr ⟨chunk, is⟩)
              | refusal status =>
                  rw [read] at h
                  cases h
              | reply reply =>
                  rw [read] at h
                  cases reply with
                  | fetched total =>
                      cases h
                      exact ⟨[], _, rest, rfl, fun _ mem => absurd mem List.not_mem_nil, rfl, is⟩
                  | _ => cases h

theorem fetched?_of_deliver (h : Deliver messages pieces bytes) :
    fetched? messages = some (pieces, bytes) := by
  obtain ⟨before, last, behind, rfl, passed, rfl, reply⟩ := h
  induction before with
  | nil =>
      obtain ⟨content, rfl, read⟩ := decode_of_frame? reply
      rw [List.nil_append, fetched?, read]
      rfl
  | cons m before ih =>
      obtain ⟨first, others⟩ := List.forall_mem_cons.1 passed
      rw [List.cons_append, fetched?_passed first, ih others, Option.map_some]
      cases brought : m.content? with
      | none => rw [List.filterMap_cons_none brought]; rfl
      | some piece => rw [List.filterMap_cons_some brought]; rfl

/-- What a client takes from the messages is what they deliver. -/
theorem fetched?_eq_some_iff : fetched? messages = some (pieces, bytes) ↔
    Deliver messages pieces bytes :=
  ⟨deliver_of_fetched?, fetched?_of_deliver⟩

end Message

/-! ### Files that are put in place -/

/-- A file can be put in place exactly if a temporary file can be made and be given the name. -/
theorem Mount.canPlace_iff {m : Mount} {name : String} (content : Bytes) (now : UnixTime) :
    m.CanPlace name ↔ ∃ opened temporary placed,
      m.createPartial now = .ok (opened, temporary) ∧
        opened.install temporary name content now = .ok placed := by
  constructor
  · rintro ⟨entered, free⟩
    obtain ⟨⟨opened, temporary⟩, made⟩ := createPartial_of_enter entered now
    obtain ⟨placed, installed, -⟩ := (opened_of_createPartial made).install free content now
    exact ⟨opened, temporary, placed, made, installed⟩
  · rintro ⟨opened, temporary, placed, made, installed⟩
    refine ⟨enter_of_createPartial made, fun directory => ?_⟩
    have refused := (opened_of_createPartial made).install_directory directory content now
    exact nomatch refused.symm.trans installed

/-- What it takes for a fetched file to be put in place. -/
structure Download.Succeeds (m : Mount) (now : UnixTime) (name : String) (messages : List Message)
    (pieces : List Bytes) (bytes : UInt64) : Prop where
  deliver : Message.Deliver messages pieces bytes
  some : pieces ≠ []
  length : pieces.flatten.length = bytes.toNat
  /-- A temporary file can be made, and be given the name. -/
  possible : ∃ opened temporary placed, m.createPartial now = .ok (opened, temporary) ∧
    opened.install temporary name pieces.flatten now = .ok placed

namespace Mount

variable {m : Mount} {now : UnixTime} {name : String} {messages : List Message}

theorem succeeds_iff {pieces : List Bytes} {bytes : UInt64} :
    Download.Succeeds m now name messages pieces bytes ↔
      Message.fetched? messages = some (pieces, bytes) ∧
        Download.Complete m name (!pieces.isEmpty) pieces.flatten bytes := by
  constructor
  · rintro ⟨deliver, some, length, possible⟩
    obtain ⟨entered, free⟩ := (canPlace_iff pieces.flatten now).2 possible
    refine ⟨Message.fetched?_eq_some_iff.2 deliver, ?_, entered, length, free⟩
    cases pieces with
    | nil => exact absurd rfl some
    | cons piece rest => rfl
  · rintro ⟨brought, begun, entered, length, free⟩
    refine ⟨Message.fetched?_eq_some_iff.1 brought, ?_, length,
      (canPlace_iff pieces.flatten now).1 ⟨entered, free⟩⟩
    rintro rfl
    exact nomatch begun

/-- A fetch that fails has left the mount as it was, and one that succeeds has put in place what the
messages deliver. -/
theorem receive_cases (m : Mount) (now : UnixTime) (name : String) (messages : List Message) :
    (∃ pieces bytes, Download.Succeeds m now name messages pieces bytes ∧
      (m.receive now name none messages).2 = .ok bytes.toNat ∧
        m.Placed now name pieces.flatten (m.receive now name none messages).1) ∨
    ((∀ pieces bytes, ¬ Download.Succeeds m now name messages pieces bytes) ∧
      (∃ failure, (m.receive now name none messages).2 = .error failure) ∧
        m.SameAs (m.receive now name none messages).1) := by
  have holds : Download.Holds m m none [] := .nothing
  have receives := Mount.receives now name messages holds
  generalize m.receive now name none messages = r at receives ⊢
  obtain ⟨m', result⟩ := r
  generalize brought : Message.fetched? messages = delivered at receives
  cases receives with
  | @placed pieces bytes _ complete placed =>
      rw [List.nil_append] at complete placed ⊢
      refine Or.inl ⟨pieces, bytes, succeeds_iff.2 ⟨brought, complete⟩, ?_, placed⟩
      rw [complete.length]
  | thrown incomplete same =>
      refine Or.inr ⟨fun pieces bytes succeeds => ?_, ⟨_, rfl⟩, same⟩
      obtain ⟨brings, complete⟩ := succeeds_iff.1 succeeds
      exact incomplete _ (brought.symm.trans brings) complete

/-- **A fetch is all or nothing.**

Whatever messages come, it succeeds exactly if they deliver pieces that are as long as the reply says
and these can be put in place, and it tells their length.  Then the name is that of a file with just
these pieces.  Otherwise the mount is the same at every place.  In either case nothing but the entry of
the name is different, and the temporary file is gone. -/
theorem receive_all_or_nothing (m : Mount) (now : UnixTime) (name : String)
    (messages : List Message) :
    let r := m.receive now name none messages
    (∀ n, r.2 = .ok n ↔
      ∃ pieces bytes, Download.Succeeds m now name messages pieces bytes ∧ n = bytes.toNat) ∧
    (∀ n, r.2 = .ok n → ∃ (pieces : List Bytes) (bytes : UInt64) (f : File),
      Message.Deliver messages pieces bytes ∧
        r.1.get? (.text name) = some (.file f) ∧ f.read = .ok pieces.flatten) ∧
    ((∀ n, r.2 ≠ .ok n) → m.SameAs r.1) ∧
    (∀ p, p ≠ m.placeOf (.text name) → r.1.tree.get? p = m.tree.get? p) ∧
    ∀ opened temporary, m.createPartial now = .ok (opened, temporary) →
      r.1.get? temporary = none := by
  intro r
  rcases m.receive_cases now name messages with
    ⟨pieces, bytes, succeeds, ok, placed⟩ | ⟨fails, ⟨failure, error⟩, same⟩
  · obtain ⟨f, puts, content, -, kept⟩ := placed.entry
    have read : f.read = .ok pieces.flatten := by rw [File.read, kept, content]
    refine ⟨fun n => ?_, fun n _ => ⟨pieces, bytes, f, succeeds.deliver, puts.entry, read⟩,
      fun failed => absurd ok (failed _), puts.others, ?_⟩
    · rw [show r.2 = .ok bytes.toNat from ok]
      constructor
      · intro told
        exact ⟨pieces, bytes, succeeds, (Except.ok.inj told).symm⟩
      · rintro ⟨pieces', bytes', succeeds', rfl⟩
        have same := (succeeds_iff.1 succeeds).1.symm.trans (succeeds_iff.1 succeeds').1
        cases same
        rfl
    · intro opened temporary made
      have hidden := opened_of_createPartial made
      exact (puts.get?_ne (hidden.hidden name).symm).trans hidden.absent
  · have unsaid : ∀ n, r.2 ≠ .ok n := by
      intro n told
      cases error.symm.trans told
    refine ⟨fun n => ⟨fun told => absurd told (unsaid n), ?_⟩, fun n told => absurd told (unsaid n),
      fun _ => same, fun p _ => same.nodes p, ?_⟩
    · rintro ⟨pieces, bytes, succeeds, -⟩
      exact absurd succeeds (fails pieces bytes)
    · intro opened temporary made
      exact (same.get?_eq temporary).trans (opened_of_createPartial made).absent

end Mount

end MountSync
