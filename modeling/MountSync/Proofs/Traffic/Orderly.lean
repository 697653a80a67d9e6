/-
Clients that wait for their calls.

If every client has at most one call on a file at a time, whoever relies on the lock of a file
owns it: a call can lose its lock only to another call of its client on that file.  Then there is
also nobody else who could change the entry of the file, since whoever changes it relies on the
lock as well.
-/
import MountSync.Proofs.Traffic.Ownership

namespace MountSync.Traffic

/-- No client has two calls on one file under way. -/
def Orderly (t : Traffic) : Prop :=
  ∀ (j k : Nat) (r s : Running), t.calls[j]? = some r → t.calls[k]? = some s →
    r.isOver = false → s.isOver = false → r.subject? ≠ none → r.subject? = s.subject? → j = k

/-- At no time during a run does a client have two calls on one file under way. -/
def OrderlyRun (t₀ : Traffic) (moves : List (Moment × Move)) : Prop :=
  ∀ before after u, moves = before ++ after → t₀.run before = some u → u.Orderly

variable {t₀ t t' : Traffic} {moves : List (Moment × Move)} {now : Moment} {move : Move}
variable {k : Nat} {e : Endpoint}

theorem OrderlyRun.last (orderly : t₀.OrderlyRun moves) (h : t₀.run moves = some t) : t.Orderly :=
  orderly moves [] t (List.append_nil moves).symm h

theorem OrderlyRun.of_concat {m : Moment × Move} (orderly : t₀.OrderlyRun (moves ++ [m])) :
    t₀.OrderlyRun moves := by
  rintro before after u rfl hu
  exact orderly before (after ++ [m]) u (by simp) hu

/-! ### Telling an orderly run by its calls

Whether a run is orderly is said of every moment of it.  The calls are never forgotten, so if there
are no two on one file by one client in the end, there never were.
-/

/-- A call is still there later in a run, and it is the same call. -/
theorem call_of_run {u : Traffic} {r : Running} (hk : u.calls[k]? = some r) :
    ∀ after t, u.run after = some t → ∃ s, t.calls[k]? = some s ∧ s.origin = r.origin := by
  refine run_induction ⟨r, hk, rfl⟩ ?_
  intro after t now move t' _ hnext ih
  obtain ⟨s, hs, horigin⟩ := ih
  obtain ⟨s', hs', hacts⟩ := call_next_of_turn (turn_of_next hnext) hs
  refine ⟨s', hs', ?_⟩
  rcases hacts with rfl | acts
  · exact horigin
  · exact acts.stride.origin.trans horigin

theorem subject?_of_origin {r s : Running} (h : s.origin = r.origin) :
    s.subject? = r.subject? := by
  rw [← s.subject?_origin, h, r.subject?_origin]

/-- If in the end all calls have been about different files, or by different clients, no client
has had two calls on one file under way. -/
theorem orderlyRun_of_distinct (h : t₀.run moves = some t)
    (distinct : ∀ (j k : Nat) (r s : Running), t.calls[j]? = some r → t.calls[k]? = some s →
      r.subject? ≠ none → r.subject? = s.subject? → j = k) : t₀.OrderlyRun moves := by
  rintro before after u rfl hu j k r s hj hk - - hne hsame
  rw [run_append, hu] at h
  obtain ⟨r', hj', hr⟩ := call_of_run hj after t h
  obtain ⟨s', hk', hs⟩ := call_of_run hk after t h
  have hr' := subject?_of_origin hr
  have hs' := subject?_of_origin hs
  exact distinct j k r' s' hj' hk' (hr' ▸ hne) (by rw [hr', hs', hsame])

theorem orderlyRun_of_subjects (subjects : List (Option (String × ClientId)))
    (hnodup : subjects.Nodup)
    (h : (t₀.run moves).map (fun t => t.calls.map Running.subject?) = some subjects) :
    t₀.OrderlyRun moves := by
  obtain ⟨t, ht, rfl⟩ := Option.map_eq_some_iff.1 h
  refine orderlyRun_of_distinct ht fun i j r s hi hj _ hsame => ?_
  have hlt : i < (t.calls.map Running.subject?).length := by
    rw [List.length_map]
    exact (List.getElem?_eq_some_iff.1 hi).1
  refine (List.getElem?_inj hlt hnodup).1 ?_
  rw [List.getElem?_map, List.getElem?_map, hi, hj]
  exact congrArg some hsame

/-! ### The lock and the file of a call

The one way to lose a lock is another call of the same client on the same file, and an orderly run
has no such call.
-/

/-- Whoever relies on a lock owns it. -/
theorem owner_of_relies (h : (idle e).run moves = some t) (orderly : (idle e).OrderlyRun moves)
    {r : Running} {f : String} {c : ClientId} (hk : t.calls[k]? = some r)
    (relies : r.relies = true) (subject : r.subject? = some (f, c)) : t.ownerOf f = some c := by
  by_contra lost
  obtain ⟨u, now, move, u', after, hp, ⟨s, hs, hsr⟩, ⟨j, q, -, hjk, hj, hqr, hqs⟩, -⟩ :=
    (lost_iff e moves t h k r f c hk relies subject).1 lost
  -- Two calls of the client on the file were under way when the lock was given away.
  obtain ⟨r', hr', horigin⟩ := call_of_run hs _ t (hp.run_from h)
  rw [hk] at hr'
  cases hr'
  have hss : s.subject? = some (f, c) := (subject?_of_origin horigin).symm.trans subject
  obtain ⟨before, hsplit, hu, -⟩ := hp
  refine hjk (orderly before _ u hsplit hu j k q s hj hs (Running.isOver_of_relies hqr)
    (Running.isOver_of_relies hsr) ?_ ?_)
  · rw [hqs]
    exact nofun
  · rw [hqs, hss]

/-- While a call relies on the lock of a file, nobody but the call itself changes the entry. -/
theorem entry_of_relies (h : (idle e).run moves = some t) (orderly : (idle e).OrderlyRun moves)
    (hnext : t.next now move = some t') {r : Running} {f : String} {c : ClientId}
    (hk : t.calls[k]? = some r) (relies : r.relies = true) (subject : r.subject? = some (f, c))
    (quiet : move.number? = some k → r.writes = false) : t'.entry f = t.entry f := by
  rcases entry_of_turn (turn_of_next hnext) (hidden_of_run e moves t h) f with
    same | ⟨j, s, d, hj, hs, writes, hsub⟩
  · exact same
  · have hrel := Running.relies_of_writes writes
    have mine := owner_of_relies h orderly hk relies subject
    have others := owner_of_relies h orderly hs hrel hsub
    obtain rfl : c = d := Option.some.inj (mine.symm.trans others)
    -- The call that writes is one of the same client on the same file, so it is this one.
    obtain rfl : k = j := by
      refine orderly.last h k j r s hk hs (Running.isOver_of_relies relies)
        (Running.isOver_of_relies hrel) ?_ ?_
      · rw [subject]
        exact nofun
      · rw [subject, hsub]
    rw [hk] at hs
    cases hs
    rw [quiet hj] at writes
    exact nomatch writes

end MountSync.Traffic
