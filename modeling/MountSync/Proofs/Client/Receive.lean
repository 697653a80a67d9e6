/-
What a client makes of a fetch.

Content that comes in stands in a temporary file that nothing else reaches, so until the reply has
come the mount is the one that the call began with and that file.  The reply says how many bytes
there were.  If these have come, the entry of the name is replaced; on every other way the temporary
file is dropped and the mount is the same as before.

This holds for whatever messages come, so what a client ends with is decided by what the messages
bring.
-/
import MountSync.Client.Reply
import MountSync.Proofs.Mount.Change

namespace MountSync

/-- The pieces that the messages of a fetch bring, and how many bytes the reply says they have; if
there is such a reply. -/
def Message.fetched? : List Message → Option (List Bytes × UInt64)
  | [] => none
  | .other :: rest => fetched? rest
  | .close :: _ => none
  | .broken _ :: _ => none
  | .binary content :: rest =>
    match ServerFrame.decode content with
    | .ok (.fetch chunk) =>
      if chunk.copyNeeded then (fetched? rest).map fun r => (chunk.content :: r.1, r.2)
      else fetched? rest
    | .ok (.reply (.fetched bytes)) => some ([], bytes)
    | _ => none

namespace Download

/-- What a mount is while content comes in: the mount as it was, and the temporary file if there
is one. -/
inductive Holds (m₀ : Mount) : Mount → Option Download → Bytes → Prop
  | nothing : Holds m₀ m₀ none []
  | some {m : Mount} {d : Download} : m₀.enter = .ok () → m₀.Opened d.temporary m →
      d.received = d.content.length → Holds m₀ m (some d) d.content

theorem content_accept (d : Download) (piece : Bytes) :
    (d.accept piece).content = d.content ++ piece := by
  simp [content, accept]

theorem received_accept {d : Download} (h : d.received = d.content.length) (piece : Bytes) :
    (d.accept piece).received = (d.accept piece).content.length := by
  rw [content_accept, List.length_append, ← h]
  rfl

variable {m₀ m : Mount} {now : UnixTime} {name : String} {arrived : Option Download}
  {content : Bytes}

/-- What is thrown away leaves the mount as it was. -/
theorem Holds.discard (h : Holds m₀ m arrived content) : m₀.SameAs (discard m arrived) := by
  cases h with
  | nothing => exact .refl m₀
  | some _ opened _ => exact opened.drop

/-- A piece is added to what has arrived, if there is a directory for the first one. -/
theorem Holds.take (h : Holds m₀ m arrived content) (now : UnixTime) (piece : Bytes) :
    (∃ fault, take m now arrived piece = .error fault ∧ arrived = none ∧ m₀.enter ≠ .ok ()) ∨
      ∃ m' d, take m now arrived piece = .ok (m', d) ∧
        Holds m₀ m' (Option.some d) (content ++ piece) := by
  cases h with
  | nothing =>
      cases made : m₀.createPartial now with
      | error fault =>
          refine Or.inl ⟨fault, ?_, rfl, ?_⟩
          · rw [Download.take, made]
          · intro entered
            obtain ⟨r, possible⟩ := Mount.createPartial_of_enter entered now
            exact nomatch possible.symm.trans made
      | ok r =>
          obtain ⟨m', temporary⟩ := r
          refine Or.inr ⟨m', (⟨temporary, [], 0⟩ : Download).accept piece, ?_, ?_⟩
          · rw [Download.take, made]
          · have first : ((⟨temporary, [], 0⟩ : Download).accept piece).content = [] ++ piece :=
              content_accept ⟨temporary, [], 0⟩ piece
            rw [← first]
            exact .some (Mount.enter_of_createPartial made) (Mount.opened_of_createPartial made)
              (received_accept (d := ⟨temporary, [], 0⟩) rfl piece)
  | @some m d entered opened received =>
      refine Or.inr ⟨m, d.accept piece, rfl, ?_⟩
      rw [← content_accept]
      exact .some entered opened (received_accept received piece)

/-- Whether content is all that was sent, which is at least one piece, and can be put in place. -/
structure Complete (m₀ : Mount) (name : String) (begun : Bool) (content : Bytes)
    (bytes : UInt64) : Prop where
  begun : begun = true
  entered : m₀.enter = .ok ()
  length : content.length = bytes.toNat
  free : m₀.get? (.text name) ≠ some .directory

/-- Everything that was sent is put in place, and anything else thrown away. -/
theorem Holds.conclude (h : Holds m₀ m arrived content) (now : UnixTime) (name : String)
    (bytes : UInt64) :
    (Complete m₀ name arrived.isSome content bytes ∧
      ∃ m', conclude m now name arrived bytes = (m', .ok content.length) ∧
        m₀.Placed now name content m') ∨
    ¬ Complete m₀ name arrived.isSome content bytes ∧
      ∃ m' failure, conclude m now name arrived bytes = (m', .error failure) ∧ m₀.SameAs m' ∧
        (arrived.isSome = true → content.length = bytes.toNat →
          ∃ fault, failure = .io fault) := by
  cases h with
  | nothing =>
      exact Or.inr ⟨fun complete => Bool.noConfusion complete.begun, _, _, rfl, .refl m₀, nofun⟩
  | @some m d entered opened received =>
      rw [Download.conclude]
      by_cases length : d.received = bytes.toNat
      · rw [if_neg (Decidable.not_not.2 length)]
        by_cases directory : m₀.get? (.text name) = Option.some .directory
        · rw [opened.install_directory directory]
          exact Or.inr ⟨fun complete => complete.free directory, _, _, rfl, opened.drop,
            fun _ _ => ⟨_, rfl⟩⟩
        · obtain ⟨m', installed, placed⟩ := opened.install directory d.content now
          rw [installed]
          refine Or.inl ⟨⟨rfl, entered, received.symm.trans length, directory⟩, m', ?_, placed⟩
          rw [received]
      · rw [if_pos length]
        refine Or.inr ⟨fun complete => length (received.trans complete.length), _, _, rfl,
          opened.drop, ?_⟩
        exact fun _ enough => absurd (received.trans enough) length

end Download

open Download

/-- How a client ends that has received the messages of a fetch, by what they bring.  If they bring
all that was sent, then it is the client's own machine that refuses. -/
inductive Mount.Receives (m₀ : Mount) (now : UnixTime) (name : String) (begun : Bool)
    (content : Bytes) : Option (List Bytes × UInt64) → Mount → Except Failure Nat → Prop
  | placed {pieces : List Bytes} {bytes : UInt64} {m : Mount} :
      Complete m₀ name (begun || !pieces.isEmpty) (content ++ pieces.flatten) bytes →
      m₀.Placed now name (content ++ pieces.flatten) m →
        Receives m₀ now name begun content (some (pieces, bytes)) m
          (.ok (content ++ pieces.flatten).length)
  | thrown {brought : Option (List Bytes × UInt64)} {m : Mount} {failure : Failure} :
      (∀ r ∈ brought,
        ¬ Complete m₀ name (begun || !r.1.isEmpty) (content ++ r.1.flatten) r.2) →
      m₀.SameAs m →
      (∀ r ∈ brought, (begun || !r.1.isEmpty) = true →
        (content ++ r.1.flatten).length = r.2.toNat → ∃ fault, failure = .io fault) →
      Receives m₀ now name begun content brought m (.error failure)

/-- A piece that has arrived is the first one of what the messages bring from there on. -/
theorem Mount.Receives.cons {m₀ m : Mount} {now : UnixTime} {name : String} {content piece : Bytes}
    {brought : Option (List Bytes × UInt64)} {result : Except Failure Nat}
    (h : m₀.Receives now name true (content ++ piece) brought m result) (begun : Bool) :
    m₀.Receives now name begun content (brought.map fun r => (piece :: r.1, r.2)) m result := by
  cases h with
  | @placed pieces bytes m complete placed =>
      have same : content ++ piece ++ pieces.flatten = content ++ (piece :: pieces).flatten := by
        rw [List.flatten_cons, List.append_assoc]
      rw [same] at complete placed ⊢
      refine .placed ?_ placed
      rw [List.isEmpty_cons, Bool.not_false, Bool.or_true]
      exact complete
  | thrown incomplete same refused =>
      refine .thrown ?_ same ?_
      · intro r bringing complete
        obtain ⟨r', bringing', rfl⟩ := Option.map_eq_some_iff.1 bringing
        refine incomplete r' bringing' ?_
        rw [List.isEmpty_cons, Bool.not_false, Bool.or_true, List.flatten_cons,
          ← List.append_assoc] at complete
        exact complete
      · intro r bringing _ enough
        obtain ⟨r', bringing', rfl⟩ := Option.map_eq_some_iff.1 bringing
        rw [List.flatten_cons, ← List.append_assoc] at enough
        exact refused r' bringing' rfl enough

/-- **Whatever messages come, the client ends by what they bring.** -/
theorem Mount.receives {m₀ : Mount} (now : UnixTime) (name : String) :
    ∀ (messages : List Message) {m : Mount} {arrived : Option Download} {content : Bytes},
      Holds m₀ m arrived content →
        m₀.Receives now name arrived.isSome content (Message.fetched? messages)
          (m.receive now name arrived messages).1 (m.receive now name arrived messages).2 := by
  intro messages
  -- Each message adds a piece to what has arrived, or is passed over, or is the last one.
  induction messages with
  | nil =>
      intro m arrived content holds
      exact .thrown nofun holds.discard nofun
  | cons message rest ih =>
      intro m arrived content holds
      cases message with
      | other => exact ih holds
      | close => exact .thrown nofun holds.discard nofun
      | broken reason => exact .thrown nofun holds.discard nofun
      | binary bytes =>
          rw [Mount.receive, Message.fetched?]
          cases ServerFrame.decode bytes with
          | error fault => exact .thrown nofun holds.discard nofun
          | ok frame =>
              cases frame with
              | refusal status => exact .thrown nofun holds.discard nofun
              | fetch chunk =>
                  dsimp only
                  by_cases needed : chunk.copyNeeded = true
                  · rw [if_pos needed, if_pos needed]
                    rcases holds.take now chunk.content with ⟨fault, failed, rfl, closed⟩ |
                      ⟨m', d, taken, holds'⟩
                    · rw [failed]
                      refine .thrown ?_ holds.discard fun _ _ _ _ => ⟨fault, rfl⟩
                      intro r _ complete
                      exact closed complete.entered
                    · rw [taken]
                      exact (ih holds').cons arrived.isSome
                  · rw [if_neg needed, if_neg needed]
                    exact ih holds
              | reply reply =>
                  cases reply with
                  | fetched total =>
                      rcases holds.conclude now name total with
                        ⟨complete, m', ended, placed⟩ |
                        ⟨incomplete, m', failure, ended, same, refused⟩
                      · have all : content ++ ([] : List Bytes).flatten = content :=
                          List.append_nil content
                        have done : m₀.Receives now name arrived.isSome content (some ([], total))
                            m' (.ok (content ++ ([] : List Bytes).flatten).length) := by
                          refine .placed ?_ ?_
                          · rw [all, List.isEmpty_nil, Bool.not_true, Bool.or_false]
                            exact complete
                          · rw [all]
                            exact placed
                        rw [all] at done
                        dsimp only
                        rw [ended]
                        exact done
                      · dsimp only
                        rw [ended]
                        refine .thrown ?_ same ?_
                        · intro r is complete
                          cases is
                          rw [List.isEmpty_nil, Bool.not_true, Bool.or_false, List.flatten_nil,
                            List.append_nil] at complete
                          exact incomplete complete
                        · intro r is begun enough
                          cases is
                          rw [List.isEmpty_nil, Bool.not_true, Bool.or_false] at begun
                          rw [List.flatten_nil, List.append_nil] at enough
                          exact refused begun enough
                  | _ => exact .thrown nofun holds.discard nofun

end MountSync
