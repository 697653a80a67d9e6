/-
When a client takes a lock for somebody else's.

It does so only if a message says so; none of the failures that it finds by itself is of that kind.
-/
import MountSync.Client.Basic
import MountSync.Proofs.Client.Passing
import MountSync.Proofs.Server.Unlocked

namespace MountSync

/-- A message that says that somebody else holds a lock. -/
def Message.Exhausts (m : Message) : Prop :=
  ∃ content status, m = .binary content ∧
    ServerFrame.decode content = .ok (.refusal status) ∧ status.code = .resourceExhausted

/-- Among the messages that answer a call one says so only if one of the frames does. -/
theorem not_exhausts_answersOf {answers : List ServerFrame} (h : ∀ f ∈ answers, ¬ f.Exhausts) :
    ∀ m ∈ answersOf answers, ¬ m.Exhausts := by
  rintro m mem ⟨content, status, rfl, read, code⟩
  rcases List.mem_append.1 mem with answer | close
  · obtain ⟨f, mem', is⟩ := List.mem_map.1 answer
    cases is
    obtain ⟨status', rfl, code'⟩ := ServerFrame.refusal_of_decode read
    exact h _ mem' ⟨status', rfl, code'.trans code⟩
  · exact nomatch List.mem_singleton.1 close

theorem Failure.kind_ofStatus {status : Status} (h : status.code ≠ .resourceExhausted) :
    (ofStatus status).kind ≠ .resourceExhausted := by
  unfold ofStatus
  cases code : status.code with
  | resourceExhausted => exact absurd code h
  | _ => exact nofun

namespace Message

variable {messages : List Message} {g : Failure}

theorem kind_of_nextFrame (h : nextFrame messages = .error g) : g.kind ≠ .resourceExhausted := by
  induction messages with
  | nil =>
      cases h
      rintro ⟨⟩
  | cons m rest ih =>
      cases m with
      | other => exact ih h
      | binary content =>
          rw [nextFrame] at h
          split at h <;> cases h
          rintro ⟨⟩
      | close =>
          cases h
          rintro ⟨⟩
      | broken reason =>
          cases h
          rintro ⟨⟩

/-- A frame that is read has come in one of the messages. -/
theorem mem_of_nextFrame {f : ServerFrame} {rest : List Message}
    (h : nextFrame messages = .ok (f, rest)) :
    ∃ content, .binary content ∈ messages ∧ ServerFrame.decode content = .ok f := by
  induction messages with
  | nil => cases h
  | cons m more ih =>
      cases m with
      | other =>
          obtain ⟨content, mem, read⟩ := ih h
          exact ⟨content, .tail _ mem, read⟩
      | binary content =>
          rw [nextFrame] at h
          split at h
          · rename_i read
            cases h
            exact ⟨content, .head _, read⟩
          · cases h
      | close => cases h
      | broken reason => cases h

theorem kind_of_replyIn (quiet : ∀ m ∈ messages, ¬ m.Exhausts) (h : replyIn messages = .error g) :
    g.kind ≠ .resourceExhausted := by
  unfold replyIn at h
  split at h
  · rename_i failed
    cases h
    exact kind_of_nextFrame failed
  · exact nomatch h
  · rename_i status rest next
    cases h
    obtain ⟨content, mem, read⟩ := mem_of_nextFrame next
    exact Failure.kind_ofStatus fun code => quiet _ mem ⟨content, status, rfl, read, code⟩
  · cases h
    exact nofun

end Message

namespace Mount

theorem kind_of_conclude {m : Mount} {now : UnixTime} {name : String} {arrived : Option Download}
    {bytes : UInt64} {g : Failure} (h : (Download.conclude m now name arrived bytes).2 = .error g) :
    g.kind ≠ .resourceExhausted := by
  unfold Download.conclude at h
  split at h
  · cases h
    exact nofun
  · split at h
    · cases h
      exact nofun
    · split at h <;> cases h
      exact nofun

theorem kind_of_receive {messages : List Message} (quiet : ∀ m ∈ messages, ¬ m.Exhausts)
    {m : Mount} {now : UnixTime} {name : String} {arrived : Option Download} {g : Failure}
    (h : (m.receive now name arrived messages).2 = .error g) : g.kind ≠ .resourceExhausted := by
  -- Only a refusal that was sent can say that something is exhausted; every other way to fail has a
  -- kind of its own.
  induction messages generalizing m arrived with
  | nil =>
      cases h
      rintro ⟨⟩
  | cons message rest ih =>
      obtain ⟨first, others⟩ := List.forall_mem_cons.1 quiet
      cases message with
      | other => exact ih others h
      | close =>
          cases h
          rintro ⟨⟩
      | broken reason =>
          cases h
          rintro ⟨⟩
      | binary content =>
          rw [receive] at h
          cases read : ServerFrame.decode content with
          | error fault =>
              rw [read] at h
              cases h
              rintro ⟨⟩
          | ok frame =>
              rw [read] at h
              cases frame with
              | fetch chunk =>
                  dsimp only at h
                  split at h
                  · split at h
                    · cases h
                      rintro ⟨⟩
                    · exact ih others h
                  · exact ih others h
              | refusal status =>
                  cases h
                  exact Failure.kind_ofStatus fun code =>
                    first ⟨content, status, rfl, read, code⟩
              | reply reply =>
                  cases reply with
                  | fetched bytes => exact kind_of_conclude h
                  | _ =>
                      cases h
                      rintro ⟨⟩

end Mount

/-- A call fails because of a lock only if it is told so. -/
theorem Site.kind_of_askFor {σ α : Type} {p : Peer σ} {x : Site σ} {timeout : Nat}
    {request : Request} {more : List ClientFrame} {what : String} {take : Reply → Option α}
    (quiet : ∀ messages, (p.exchange x.world timeout (.call (.ofNat timeout) request :: more)).2
      = .ok messages → ∀ m ∈ messages, ¬ m.Exhausts) {g : Failure}
    (h : (x.askFor p timeout request more what take).2 = .error g) :
    g.kind ≠ .resourceExhausted := by
  unfold askFor ask call at h
  rcases exchanged : p.exchange x.world timeout (.call (.ofNat timeout) request :: more) with
    ⟨w, came⟩
  rw [exchanged] at h quiet
  cases came with
  | error fault =>
      cases h
      exact nofun
  | ok messages =>
      dsimp only at h
      cases replied : Message.replyIn messages with
      | error failure =>
          rw [replied] at h
          cases h
          exact Message.kind_of_replyIn (quiet messages rfl) replied
      | ok reply =>
          rw [replied] at h
          dsimp only at h
          cases taken : take reply with
          | some a =>
              rw [taken] at h
              exact nomatch h
          | none =>
              rw [taken] at h
              cases h
              exact nofun

end MountSync
