/-
No client misunderstands a server.

A server that is shared with others serves, whatever these do to it meanwhile: what a client hears
of a call is what comes through of an answer to it, or of none.  So the shape that every answer has
rules out the two failures that only a client finds.
-/
import MountSync.Proofs.Client.Understood
import MountSync.Proofs.Cluster.Shared

namespace MountSync

namespace Shared

/-- Whether the machine below never finds a frame out of place when it fails to connect: it has
seen none. -/
def Connects (w : Shared) : Prop :=
  ∀ p ∈ w.coming, ∀ fault, p.refused = some fault → ∀ what, fault ≠ .unexpectedFrame what

/-- A call fails only because it gets no connection. -/
theorem refused_of_exchange {w : Shared} (timeout : Nat) (frames : List ClientFrame)
    {fault : LinkFault} (h : (w.exchange timeout frames).2 = .error fault) :
    w.next.refused = some fault := by
  unfold exchange at h
  dsimp only at h
  split at h
  · rename_i fault' refused
    cases h
    exact refused
  · exact nomatch h

theorem refused_next {w : Shared} (connects : w.Connects) {fault : LinkFault}
    (refused : w.next.refused = some fault) (what : String) : fault ≠ .unexpectedFrame what := by
  cases coming : w.coming with
  | nil =>
      rw [next, coming] at refused
      exact nomatch refused
  | cons p rest =>
      rw [next, coming] at refused
      exact connects p (coming ▸ .head _) fault refused what

/-- A server that others use as well serves a client. -/
theorem serves : Peer.shared.Serves Connects where
  stays := by
    intro w timeout frames connects p mem
    rw [show (Peer.shared.exchange w timeout frames).1.coming = w.coming.tail from
      (w.goes_exchange timeout frames).coming] at mem
    exact connects p (List.mem_of_mem_tail mem)
  connects := by
    intro w timeout frames fault connects failed what
    exact refused_next connects (refused_of_exchange timeout frames failed) what
  answers := by
    intro w timeout limit request more came _ answered
    rcases w.exchange_cases timeout (.call limit request :: more) with ⟨-, fault, failed⟩ |
      ⟨-, s, s', times, answers, -, carried, -, came'⟩
    · exact nomatch answered.symm.trans failed
    · cases answered.symm.trans came'
      have heard := s.hears_serve times w.next.outgoing w.next.incoming limit request more
      rw [carried] at heard
      exact heard

/-- **Client and server agree on what a call looks like.**

The answer of a server to a call is one frame that tells the result, and before it messages that go
with the request and the result: none unless it is a fetch, one without content if the client's copy
is to stay and the fetch fails, and all of the file if the fetch succeeds.  A fetch sends such
messages however much it reads at a time, and even when others work on the endpoint between any two
of its steps.  So whatever a client asks of anybody who answers in this way, and however much of the
answer comes through, it never fails because a frame has no place in the call or because the
messages do not add up; and a server that others use as well answers in this way. -/
theorem calls_understood :
    (∀ (s : Server) (times : Schedule) (o : Opening), ∃ messages result,
      (s.serveCall times o).2 = messages.map .fetch ++ [ServerFrame.ofResult result] ∧
      Answers o.request messages result) ∧
    (∀ (name : String) (mine : Option FileVersion) (d : Deadline) (c : FetchCall)
        (messages : List FetchChunk), FetchCall.Sent (.begin name mine d) c messages →
      Answers (.fetch name mine) messages
        ((c.result?.getD (.error .deadlineExceeded)).map fun n => .fetched (.ofNat n))) ∧
    (∀ (σ : Type) (p : Peer σ) (I : σ → Prop), p.Serves I →
      ∀ (x : Site σ) (c : ClientCall) (failure : Failure), I x.world →
        (x.make p c).2 = .error failure → ¬ failure.Misunderstands) ∧
    ∀ (x : Site Shared) (c : ClientCall) (failure : Failure), x.world.Connects →
      (x.make Peer.shared c).2 = .error failure → ¬ failure.Misunderstands := by
  have understood : ∀ (σ : Type) (p : Peer σ) (I : σ → Prop), p.Serves I →
      ∀ (x : Site σ) (c : ClientCall) (failure : Failure), I x.world →
        (x.make p c).2 = .error failure → ¬ failure.Misunderstands := by
    intro σ p I serves x c failure inv failed
    exact (Site.make_understands serves inv c).2 failure failed
  refine ⟨?_, ?_, understood, understood Shared Peer.shared Connects serves⟩
  · intro s times o
    obtain ⟨messages, result, answered, answers, -⟩ := s.serveCall_answers times o
    exact ⟨messages, result, answered, answers⟩
  · intro name mine d c messages sent
    exact .ofSent sent

/-- A client of a server that has one file; the connection of its first call is lost behind the
first message of the answer. -/
def cutOff : Site Shared where
  client := ⟨.forTesting "" "" "bob", .holding []⟩
  world := { Shared.start (.holding [("f", [1, 2], 5)]) ⟨0, 10⟩ with
    coming := [{ Passage.quiet ⟨0, 10⟩ with incoming := .upTo 1 (.broken "reset") }] }

/-- The client of `cutOff` is told what has become of the connection, though a server that reads the
file byte by byte has sent all that there is. -/
theorem fetch_of_cutOff_understood :
    let c₀ := FetchCall.begin "f" none (.after 0 5000)
    let e := (c₀.enter cutOff.world.server.endpoint (.atOnce ⟨0, 10⟩) 1)
    let r := e.2.finish e.1 ⟨0, 10⟩ (fun _ => 1) (fun _ => .delivered)
    let failure := Failure.link (.transport "connection broken: reset")
    FetchCall.Sent c₀ r.2.1 r.2.2 ∧ r.2.1.result? = some (.ok 2) ∧
    Answers (.fetch "f" none) r.2.2 (.ok (.fetched 2)) ∧ r.2.2.length = 2 ∧
    Peer.shared.Serves Connects ∧ cutOff.world.Connects ∧
    (cutOff.make Peer.shared (.fetch "f")).2 = .error failure ∧
    ¬ failure.Misunderstands := by
  intro c₀ e r failure
  obtain ⟨-, sending, client, -⟩ := calls_understood
  have sent : FetchCall.Sent c₀ r.2.1 r.2.2 :=
    FetchCall.Sent.finish _ (.atOnce ⟨0, 10⟩) (fun _ => 1) (fun _ => .delivered) c₀
  have told : r.2.1.result? = some (.ok 2) := by decide +kernel
  have answers := sending "f" none _ _ _ sent
  rw [told] at answers
  have connects : cutOff.world.Connects := List.forall_mem_singleton.2 nofun
  have failed : (cutOff.make Peer.shared (.fetch "f")).2 = .error failure := by decide +kernel
  have bytewise : r.2.2.length = 2 := by decide +kernel
  exact ⟨sent, told, answers, bytewise, serves, connects, failed,
    client Shared Peer.shared Connects serves cutOff (.fetch "f") failure connects failed⟩

end Shared

end MountSync
