/-
Whether a call still owns its file when it writes.

A call looks once, at its start, whether its caller owns the file, and writes much later.  In
between the lock can only be given away by a call of the same client on the same file: to all
others the row of the file is closed while it has that owner.  So a client that has one call on a
file at a time owns the file whenever it writes, and one that has several, as after giving up on
a call and trying again, may write to a file that somebody else owns by then.

`lost_iff` says so exactly: a call that relies on its lock does not own the file if and only if
another call of its client on that file has given the lock away since, and the client has not got
it again.  It is proved by adding one move at the end of a run, along the three things that a move
can do to an owner.
-/
import MountSync.Proofs.Traffic.Run

namespace MountSync.Traffic

/-! ### Giving a lock away, and getting it again

A lock may be given away and got again any number of times, so what decides is whether the last of
these moves gave it away.
-/

/-- Some time during `moves`, which are made from `t` on, the client comes to own the file. -/
def Regains (t : Traffic) (moves : List (Moment × Move)) (f : String) (c : ClientId) : Prop :=
  ∃ u now move u' after, t.Passes moves u now move u' after ∧
    u.ownerOf f ≠ some c ∧ u'.ownerOf f = some c

/-- The lock that call `k` relies on is given away during a run: by a move of another call of the
same client on the same file, and for good. -/
def GivesAway (t₀ : Traffic) (moves : List (Moment × Move)) (k : Nat) (f : String)
    (c : ClientId) : Prop :=
  ∃ u now move u' after, t₀.Passes moves u now move u' after ∧
    (∃ r, u.calls[k]? = some r ∧ r.relies = true) ∧
    (∃ j s, move.number? = some j ∧ j ≠ k ∧ u.calls[j]? = some s ∧ s.relies = true ∧
      s.subject? = some (f, c)) ∧
    u.ownerOf f = some c ∧ u'.ownerOf f ≠ some c ∧ ¬ u'.Regains after f c

variable {t₀ t t' : Traffic} {moves : List (Moment × Move)} {now : Moment} {move : Move}
variable {k : Nat} {f : String} {c : ClientId}

theorem not_regains_nil (t : Traffic) (f : String) (c : ClientId) : ¬ t.Regains [] f c := by
  rintro ⟨u, now, move, u', after, ⟨before, hsplit, -, -⟩, -⟩
  exact absurd hsplit.symm (by simp)

/-- One more move gets the lock again only if it is the one that does. -/
theorem regains_concat_iff (h : t₀.run moves = some t) (hnext : t.next now move = some t') :
    t₀.Regains (moves ++ [(now, move)]) f c ↔
      t₀.Regains moves f c ∨ t.ownerOf f ≠ some c ∧ t'.ownerOf f = some c := by
  constructor
  · rintro ⟨u, n, m, u', after, hp, hu, hu'⟩
    rcases hp.of_concat with ⟨rest, -, hp'⟩ | ⟨-, hm, hrun, hn⟩
    · exact Or.inl ⟨u, n, m, u', rest, hp', hu, hu'⟩
    · obtain ⟨rfl, rfl⟩ := Prod.mk.inj hm
      obtain rfl : t = u := Option.some.inj (h.symm.trans hrun)
      obtain rfl : t' = u' := Option.some.inj (hnext.symm.trans hn)
      exact Or.inr ⟨hu, hu'⟩
  · rintro (⟨u, n, m, u', after, hp, hu, hu'⟩ | ⟨hu, hu'⟩)
    · exact ⟨u, n, m, u', _, hp.concat _, hu, hu'⟩
    · exact ⟨t, now, move, t', [], .last h hnext, hu, hu'⟩

/-- One more move leaves a lock given away unless it gets the lock again, or gives it away. -/
theorem givesAway_concat_iff (h : t₀.run moves = some t) (hnext : t.next now move = some t') :
    t₀.GivesAway (moves ++ [(now, move)]) k f c ↔
      (t₀.GivesAway moves k f c ∧ ¬ (t.ownerOf f ≠ some c ∧ t'.ownerOf f = some c)) ∨
      ((∃ r, t.calls[k]? = some r ∧ r.relies = true) ∧
        (∃ j s, move.number? = some j ∧ j ≠ k ∧ t.calls[j]? = some s ∧ s.relies = true ∧
          s.subject? = some (f, c)) ∧
        t.ownerOf f = some c ∧ t'.ownerOf f ≠ some c) := by
  constructor
  · rintro ⟨u, n, m, u', after, hp, hk, hj, hu, hu', hlost⟩
    rcases hp.of_concat with ⟨rest, rfl, hp'⟩ | ⟨-, hm, hrun, hn⟩
    · rw [regains_concat_iff (hp'.run_after h) hnext, not_or] at hlost
      exact Or.inl ⟨⟨u, n, m, u', rest, hp', hk, hj, hu, hu', hlost.1⟩, hlost.2⟩
    · obtain ⟨rfl, rfl⟩ := Prod.mk.inj hm
      obtain rfl : t = u := Option.some.inj (h.symm.trans hrun)
      obtain rfl : t' = u' := Option.some.inj (hnext.symm.trans hn)
      exact Or.inr ⟨hk, hj, hu, hu'⟩
  · rintro (⟨⟨u, n, m, u', after, hp, hk, hj, hu, hu', hlost⟩, hnot⟩ | ⟨hk, hj, hu, hu'⟩)
    · refine ⟨u, n, m, u', _, hp.concat _, hk, hj, hu, hu', ?_⟩
      rw [regains_concat_iff (hp.run_after h) hnext]
      exact not_or.2 ⟨hlost, hnot⟩
    · exact ⟨t, now, move, t', [], .last h hnext, hk, hj, hu, hu', not_regains_nil t' f c⟩

/-! ### The exact condition -/

/-- A call that has looked at its lock relies on it or is over, from then on. -/
theorem looked_of_run {u : Traffic} {r : Running} (hk : u.calls[k]? = some r)
    (hr : r.relies = true ∨ r.isOver = true) :
    ∀ after t, u.run after = some t →
      ∃ r', t.calls[k]? = some r' ∧ (r'.relies = true ∨ r'.isOver = true) := by
  refine run_induction ⟨r, hk, hr⟩ ?_
  intro after t now move t' _ hnext ih
  obtain ⟨s, hs, hlook⟩ := ih
  obtain ⟨s', hs', hstride⟩ := call_next_of_turn (turn_of_next hnext) hs
  refine ⟨s', hs', ?_⟩
  rcases hstride with rfl | acts
  · exact hlook
  · rcases hlook with hrel | hover
    · exact acts.stride.lasts hrel
    · obtain rfl : s' = s := acts.stride.rests hover
      exact Or.inr hover

/-- A call relies on its lock without a break: if it did before and does again, it still does. -/
theorem relies_between {u : Traffic} {after : List (Moment × Move)} {s r r' : Running}
    (hs : u.calls[k]? = some s) (hrel : s.relies = true) (h : u.run after = some t)
    (hk : t.calls[k]? = some r) (hnext : t.next now move = some t')
    (hk' : t'.calls[k]? = some r') (hr' : r'.relies = true) : r.relies = true := by
  obtain ⟨q, hq, hlook⟩ := looked_of_run hs (Or.inl hrel) after t h
  rw [hk] at hq
  cases hq
  rcases hlook with hr | hover
  · exact hr
  · -- A call that is over stays as it is.
    obtain ⟨q', hq', hstride⟩ := call_next_of_turn (turn_of_next hnext) hk
    rw [hk'] at hq'
    cases hq'
    rcases hstride with rfl | acts
    · exact hr'
    · obtain rfl : r' = r := acts.stride.rests hover
      exact hr'

/-- **A call that relies on a lock has lost it exactly if another call of the same client on the
same file gave it away.** -/
theorem lost_iff (e : Endpoint) :
    ∀ moves t, (idle e).run moves = some t → ∀ k r f c, t.calls[k]? = some r →
      r.relies = true → r.subject? = some (f, c) →
      (t.ownerOf f ≠ some c ↔ (idle e).GivesAway moves k f c) := by
  refine run_induction (fun k r f c hk => by simp [idle] at hk) ?_
  intro moves t now move t' hrun hnext ih k r' f c hk' hr' hs'
  obtain ⟨r, hk, horigin, hrel⟩ := relies_of_turn (turn_of_next hnext) hk' hr'
  have hs : r.subject? = some (f, c) := by
    rw [← r.subject?_origin, horigin, r'.subject?_origin, hs']
  rw [givesAway_concat_iff hrun hnext]
  by_cases hr : r.relies = true
  · have hih := ih k r f c hk hr hs
    rcases ownerOf_of_turn (turn_of_next hnext) f with
      same | ⟨d, deadline, -, hn, hd⟩ | ⟨j, s, d, hj, hjs, hsub, hsrel, ho, hn, hlet⟩
    · -- Nothing has changed, so neither does the answer.
      rw [same]
      constructor
      · exact fun hne => Or.inl ⟨hih.1 hne, fun hback => hback.1 hback.2⟩
      · rintro (⟨hgone, -⟩ | ⟨-, -, hyes, hno⟩)
        · exact hih.2 hgone
        · exact hno
    · -- The lock was free and is granted, to this client or to another one.
      have hne : t.ownerOf f ≠ some c := by
        simp [hn]
      constructor
      · exact fun hne' => Or.inl ⟨hih.1 hne, fun hback => hne' hback.2⟩
      · rintro (⟨-, hno⟩ | ⟨-, -, hyes, -⟩)
        · exact fun hyes => hno ⟨hne, hyes⟩
        · exact absurd hyes hne
    · -- A call gives the lock away, of this client or of another one.
      rw [hn]
      refine iff_of_true (by simp) ?_
      by_cases hdc : d = c
      · subst hdc
        -- It is another call, for this one still relies on the lock.
        have hjk : j ≠ k := fun same => by
          rw [hlet r' (same ▸ hk')] at hr'
          cases hr'
        exact Or.inr ⟨⟨r, hk, hr⟩, ⟨j, s, hj, hjk, hjs, hsrel, hsub⟩, ho, by simp⟩
      · have hne : t.ownerOf f ≠ some c := by
          rw [ho]
          exact fun same => hdc (Option.some.inj same)
        exact Or.inl ⟨hih.1 hne, fun hback => by cases hback.2⟩
  · -- The last move is the one that found the caller to be the owner.
    have hown : t'.ownerOf f = some c := by
      obtain ⟨g, d, hgd, ho⟩ := hrel.resolve_left hr
      rw [hs'] at hgd
      cases hgd
      exact ho
    refine iff_of_false (fun hne => hne hown) ?_
    rintro (⟨⟨u, n, m, u', after, hp, ⟨s, hsk, hsr⟩, -⟩, -⟩ | ⟨⟨s, hsk, hsr⟩, -⟩)
    · exact hr (relies_between hsk hsr (hp.run_from hrun) hk hnext hk' hr')
    · rw [hk] at hsk
      cases hsk
      exact hr hsr

/-! ### What is written, and by whom

A call that is about to write relies on its lock, so the exact condition applies to it.
-/

/--
**A call that writes owns the file exactly if no other call of its client gave the lock away.**

Whatever calls overlap in whatever order, an entry of the mount changes only by a step of a store
or delete that is about it.  At that moment the client of the call owns the file, unless another
call under the same client id on the same file has given the lock back or up since the call found
its caller to be the owner, and the client was not granted it again.
-/
theorem owner_of_writes_iff {e : Endpoint} {moves : List (Moment × Move)} {t : Traffic}
    (h : (idle e).run moves = some t) :
    (∀ k r f c, t.calls[k]? = some r → r.writes = true → r.subject? = some (f, c) →
      (t.ownerOf f = some c ↔ ¬ (idle e).GivesAway moves k f c)) ∧
    ∀ now move t' f, t.next now move = some t' → t'.entry f ≠ t.entry f →
      ∃ k r c, move.number? = some k ∧ t.calls[k]? = some r ∧ r.writes = true ∧
        r.subject? = some (f, c) := by
  constructor
  · intro k r f c hk hw hs
    rw [← lost_iff e moves t h k r f c hk (Running.relies_of_writes hw) hs, not_not]
  · intro now move t' f hnext hne
    exact (entry_of_turn (turn_of_next hnext) (hidden_of_run e moves t h) f).resolve_left hne

/-! ### A store that is tried again

The client gives up waiting for a store that has not had all of its content yet, and tries again.
The second store succeeds and gives the lock back, somebody else gets it, and then the rest of the
first store arrives.
-/

/-- An endpoint with an empty mount. -/
def emptyEndpoint : Endpoint := .create (.empty .bare [.text "m"]) 8 8

def headerOf (name client : String) (content : Bytes) (mtime : UnixTime) : StoreHeader :=
  ⟨name, .ofNat content.length, client, checksum content, mtime⟩

/-- Moves that are all made at one moment. -/
def atOnce (moves : List Move) : List (Moment × Move) := moves.map fun move => (⟨0, 50⟩, move)

def triedAgain : List (Moment × Move) :=
  atOnce [.requestLock "f" "alice" ⟨100⟩,
    .beginStore (headerOf "f" "alice" [1, 2] 9) ⟨100⟩, .step 0 0, .step 0 0, .step 0 0,
    .stream 0 (.chunk [1]),
    .beginStore (headerOf "f" "alice" [3] 9) ⟨100⟩, .step 1 0, .step 1 0, .step 1 0,
    .stream 1 (.chunk [3]), .stream 1 .ended, .step 1 0, .step 1 0,
    .requestLock "f" "bob" ⟨100⟩,
    .stream 0 (.chunk [2]), .stream 0 .ended]

theorem run_triedAgain :
    ∃ t r, (idle emptyEndpoint).run triedAgain = some t ∧ t.calls[0]? = some r ∧
      r.writes = true ∧ r.subject? = some ("f", "alice") ∧ t.ownerOf "f" = some "bob" := by
  have h : ((idle emptyEndpoint).run triedAgain).map (fun t =>
      (t.ownerOf "f", t.calls[0]?.map fun r => (r.writes, r.subject?)))
        = some (some "bob", some (true, some ("f", "alice"))) := by decide +kernel
  obtain ⟨t, ht, hv⟩ := Option.map_eq_some_iff.1 h
  obtain ⟨ho, hcall⟩ := Prod.mk.inj hv
  obtain ⟨r, hr, hv⟩ := Option.map_eq_some_iff.1 hcall
  obtain ⟨hw, hs⟩ := Prod.mk.inj hv
  exact ⟨t, r, ht, hr, hw, hs, ho⟩

/-- The first store is about to write to a file that somebody else owns. -/
theorem writer_need_not_own :
    ¬ ∀ (e : Endpoint) (moves : List (Moment × Move)) (t : Traffic) (k : Nat) (r : Running)
      (f : String) (c : ClientId), e.locks = .empty → (idle e).run moves = some t →
      t.calls[k]? = some r → r.writes = true → r.subject? = some (f, c) →
      t.ownerOf f = some c := by
  intro claim
  obtain ⟨t, r, ht, hr, hw, hs, ho⟩ := run_triedAgain
  have hown := claim emptyEndpoint triedAgain t 0 r "f" "alice" rfl ht hr hw hs
  rw [ho] at hown
  exact absurd hown (by decide)

/-- It has lost its lock to the second one. -/
theorem triedAgain_givesAway :
    ∃ t r, (idle emptyEndpoint).run triedAgain = some t ∧ t.calls[0]? = some r ∧
      r.writes = true ∧ r.subject? = some ("f", "alice") ∧ t.ownerOf "f" ≠ some "alice" ∧
      (idle emptyEndpoint).GivesAway triedAgain 0 "f" "alice" := by
  obtain ⟨t, r, ht, hr, hw, hs, ho⟩ := run_triedAgain
  have hne : t.ownerOf "f" ≠ some "alice" := by
    rw [ho]
    decide
  have hiff := (owner_of_writes_iff ht).1 0 r "f" "alice" hr hw hs
  exact ⟨t, r, ht, hr, hw, hs, hne, by_contra fun hnot => hne (hiff.2 hnot)⟩

end MountSync.Traffic
