/-
What a move does to the traffic on an endpoint, and how a run is taken apart.

A move grants a lock, or begins a call, or lets one call take a stride.  From these three the
questions that matter to the other calls are answered once and for all: who owns a file after a
move, what is in the mount, and which calls are under way.  Statements about runs are then proved
by adding one move at the end.
-/
import MountSync.Proofs.Traffic.Step
import Mathlib.Data.List.Induction

namespace MountSync

/-- The call that a move lets go on, by its number. -/
def Move.number? : Move → Option Nat
  | .step number _ | .stream number _ | .handOver number _ => some number
  | _ => none

namespace Traffic

def ownerOf (t : Traffic) (f : String) : Option ClientId := t.endpoint.locks.ownerOf f

/-- What a name stands for in the mount, without following links. -/
def entry (t : Traffic) (f : String) : Option Node := t.endpoint.mount.get? (.text f)

/-! ### One move

The calls are numbered in the order in which they began, and a move changes one of them at most.
`Acts` is what the move does to that one and to the endpoint, and `Turn` what it does to the whole.
-/

/-- What a move makes of the call that it lets go on, and of the endpoint. -/
inductive Acts (e : Endpoint) (now : Moment) (k : Nat) : Move → Running → Endpoint × Running → Prop
  | store {c c' : StoreCall} {e' : Endpoint} {limit : Nat} (h : c.step e now = (e', c')) :
      Acts e now k (.step k limit) (.store c) (e', .store c')
  | fetch {c c' : FetchCall} {e' : Endpoint} {limit : Nat} (h : c.step e now limit = (e', c')) :
      Acts e now k (.step k limit) (.fetch c) (e', .fetch c')
  | delete {c c' : DeleteCall} {e' : Endpoint} {limit : Nat} (h : c.step e now = (e', c')) :
      Acts e now k (.step k limit) (.delete c) (e', .delete c')
  | probe {c c' : ProbeCall} {e' : Endpoint} {limit : Nat} (h : c.step e now = (e', c')) :
      Acts e now k (.step k limit) (.probe c) (e', .probe c')
  | expiry {c c' : ExpiryCall} {e' : Endpoint} {limit : Nat} (h : c.step e = (e', c')) :
      Acts e now k (.step k limit) (.expiry c) (e', .expiry c')
  | take {c c' : StoreCall} {e' : Endpoint} {a : Arrival} (h : c.take e now a = (e', c')) :
      Acts e now k (.stream k a) (.store c) (e', .store c')
  | handOver {c c' : FetchCall} {e' : Endpoint} {outcome : Handover}
      (h : c.handOver e outcome = (e', c')) :
      Acts e now k (.handOver k outcome) (.fetch c) (e', .fetch c')

namespace Acts

variable {e : Endpoint} {now : Moment} {k : Nat} {move : Move} {r : Running}
variable {x : Endpoint × Running}

theorem number (h : Acts e now k move r x) : move.number? = some k := by
  cases h <;> rfl

/-- Whichever way a move lets a call go on, to the others it is a stride. -/
theorem stride (h : Acts e now k move r x) : Stride e r x.1 x.2 := by
  cases h with
  | @store c c' e' limit h => have := c.step_stride e now; rwa [h] at this
  | @fetch c c' e' limit h => have := c.step_stride e now limit; rwa [h] at this
  | @delete c c' e' limit h => have := c.step_stride e now; rwa [h] at this
  | @probe c c' e' limit h => have := c.step_stride e now; rwa [h] at this
  | @expiry c c' e' limit h => have := c.step_stride e; rwa [h] at this
  | @take c c' e' a h => have := c.take_stride e now a; rwa [h] at this
  | @handOver c c' e' outcome h => have := c.handOver_stride e outcome; rwa [h] at this

theorem of_step (e : Endpoint) (now : Moment) (k limit : Nat) (r : Running) :
    Acts e now k (.step k limit) r (r.step e now limit) := by
  cases r with
  | store c => exact .store rfl
  | fetch c => exact .fetch rfl
  | delete c => exact .delete rfl
  | probe c => exact .probe rfl
  | expiry c => exact .expiry rfl

end Acts

/-- What a move makes of the traffic, as far as the calls can tell. -/
inductive Turn (t : Traffic) (now : Moment) : Move → Traffic → Prop
  | lock {name : String} {client : ClientId} {deadline : Deadline} :
      Turn t now (.requestLock name client deadline)
        { t with endpoint := (t.endpoint.requestLock name client deadline now.instant).1 }
  | arrive {move : Move} {r : Running} (fresh : r.origin = r) (number : move.number? = none) :
      Turn t now move (t.begin r)
  | go {move : Move} {k : Nat} {r : Running} {x : Endpoint × Running}
      (call : t.calls[k]? = some r) (acts : Acts t.endpoint now k move r x) :
      Turn t now move (t.advance k x)

theorem getElem?_of_store? {t : Traffic} {k : Nat} {c : StoreCall}
    (h : t.calls[k]?.bind Running.store? = some c) : t.calls[k]? = some (.store c) := by
  obtain ⟨r, hr, hc⟩ := Option.bind_eq_some_iff.1 h
  cases r <;> cases hc
  exact hr

theorem getElem?_of_fetch? {t : Traffic} {k : Nat} {c : FetchCall}
    (h : t.calls[k]?.bind Running.fetch? = some c) : t.calls[k]? = some (.fetch c) := by
  obtain ⟨r, hr, hc⟩ := Option.bind_eq_some_iff.1 h
  cases r <;> cases hc
  exact hr

theorem turn_of_next {t t' : Traffic} {now : Moment} {move : Move}
    (h : t.next now move = some t') : t.Turn now move t' := by
  cases move with
  | requestLock name client deadline => cases h; exact .lock
  | beginStore header deadline => cases h; exact .arrive rfl rfl
  | beginFetch name mine deadline => cases h; exact .arrive rfl rfl
  | beginDelete name client deadline => cases h; exact .arrive rfl rfl
  | beginProbe name client checksum deadline => cases h; exact .arrive rfl rfl
  | beginExpiry name client => cases h; exact .arrive rfl rfl
  | step number limit =>
      obtain ⟨r, hr, rfl⟩ := Option.map_eq_some_iff.1 h
      exact .go hr (.of_step ..)
  | stream number a =>
      obtain ⟨c, hc, rfl⟩ := Option.map_eq_some_iff.1 h
      exact .go (getElem?_of_store? hc) (.take rfl)
  | handOver number outcome =>
      obtain ⟨c, hc, rfl⟩ := Option.map_eq_some_iff.1 h
      exact .go (getElem?_of_fetch? hc) (.handOver rfl)

/-- Only the call that goes on is another one afterwards. -/
theorem getElem?_advance {t : Traffic} {k : Nat} {r : Running} (hk : t.calls[k]? = some r)
    (x : Endpoint × Running) (j : Nat) :
    (t.advance k x).calls[j]? = if k = j then some x.2 else t.calls[j]? := by
  have hlt : k < t.calls.length := (List.getElem?_eq_some_iff.1 hk).1
  show (t.calls.set k x.2)[j]? = _
  rw [List.getElem?_set]
  by_cases hj : k = j
  · rw [if_pos hj, if_pos hj, if_pos (hj ▸ hlt)]
  · rw [if_neg hj, if_neg hj]

variable {t t' : Traffic} {now : Moment} {move : Move}

/-- A call after a move is the one before it, or it has been let go on, or it is new. -/
theorem call_of_turn (h : t.Turn now move t') {j : Nat} {r' : Running}
    (hj : t'.calls[j]? = some r') :
    (t.calls[j]? = some r' ∧ move.number? ≠ some j) ∨
      (∃ r, t.calls[j]? = some r ∧ Acts t.endpoint now j move r (t'.endpoint, r')) ∨
      (t.calls[j]? = none ∧ r'.origin = r' ∧ t'.endpoint = t.endpoint) := by
  cases h with
  | lock => exact Or.inl ⟨hj, nofun⟩
  | @arrive move r fresh number =>
      rw [begin, List.getElem?_append] at hj
      split at hj
      · exact Or.inl ⟨hj, by rw [number]; exact nofun⟩
      · rename_i hlt
        rw [List.getElem?_singleton] at hj
        split at hj
        · cases hj
          exact Or.inr (Or.inr ⟨List.getElem?_eq_none (Nat.not_lt.1 hlt), fresh, rfl⟩)
        · exact nomatch hj
  | @go move k r x call acts =>
      rw [getElem?_advance call] at hj
      by_cases hkj : k = j
      · subst hkj
        rw [if_pos rfl] at hj
        cases hj
        exact Or.inr (Or.inl ⟨r, call, acts⟩)
      · rw [if_neg hkj] at hj
        refine Or.inl ⟨hj, ?_⟩
        rw [acts.number]
        exact fun same => hkj (Option.some.inj same)

/-- A call before a move is still there after it, and if it has changed it has been let go
on. -/
theorem call_next_of_turn (h : t.Turn now move t') {j : Nat} {r : Running}
    (hj : t.calls[j]? = some r) :
    ∃ r', t'.calls[j]? = some r' ∧
      (r' = r ∨ Acts t.endpoint now j move r (t'.endpoint, r')) := by
  cases h with
  | lock => exact ⟨r, hj, Or.inl rfl⟩
  | arrive fresh number =>
      have hlt : j < t.calls.length := (List.getElem?_eq_some_iff.1 hj).1
      exact ⟨r, by rw [begin, List.getElem?_append_left hlt, hj], Or.inl rfl⟩
  | @go move k s x call acts =>
      by_cases hkj : k = j
      · subst hkj
        rw [call] at hj
        cases hj
        exact ⟨x.2, by rw [getElem?_advance call, if_pos rfl], Or.inr acts⟩
      · exact ⟨r, by rw [getElem?_advance call, if_neg hkj, hj], Or.inl rfl⟩

/-- A call that relies on its lock after a move did so before, or has just found its caller to
be the owner. -/
theorem relies_of_turn (h : t.Turn now move t') {k : Nat} {r' : Running}
    (hk : t'.calls[k]? = some r') (hr : r'.relies = true) :
    ∃ r, t.calls[k]? = some r ∧ r.origin = r'.origin ∧
      (r.relies = true ∨ r'.OwnedIn t'.endpoint.locks) := by
  rcases call_of_turn h hk with ⟨hk', -⟩ | ⟨r, hk', acts⟩ | ⟨-, fresh, -⟩
  · exact ⟨r', hk', rfl, Or.inl hr⟩
  · have stride := acts.stride
    refine ⟨r, hk', stride.origin.symm, ?_⟩
    rcases stride.check hr with hrel | ⟨f, c, hs, ho⟩
    · exact Or.inl hrel
    · refine Or.inr ⟨f, c, stride.subject?.trans hs, ?_⟩
      rw [stride.locks.eq_of_relies hr]
      exact ho
  · rw [← fresh, Running.relies_origin] at hr
    exact nomatch hr

/-! ### The owner of a file after a move -/

theorem ownerOf_requestLock (e : Endpoint) (name : String) (client : ClientId)
    (deadline : Deadline) (now : Nat) (f : String) :
    (e.requestLock name client deadline now).1.locks.ownerOf f = e.locks.ownerOf f ∨
      f = name ∧ e.locks.ownerOf f = none ∧
        (e.requestLock name client deadline now).1.locks.ownerOf f = some client := by
  have key : (e.locks.acquire name client).1.ownerOf f = e.locks.ownerOf f ∨
      f = name ∧ e.locks.ownerOf f = none ∧
        (e.locks.acquire name client).1.ownerOf f = some client := by
    by_cases hf : f = name
    · subst hf
      rw [LockTable.ownerOf_acquire]
      cases ho : e.locks.ownerOf f with
      | none => exact Or.inr ⟨rfl, rfl, rfl⟩
      | some owner => exact Or.inl rfl
    · exact Or.inl (LockTable.ownerOf_acquire_ne hf)
  unfold Endpoint.requestLock
  split
  · exact Or.inl rfl
  · split
    · exact Or.inl rfl
    · split
      · rename_i locks hl
        rw [hl] at key
        exact key
      · rename_i locks hl
        rw [hl] at key
        exact key

theorem mount_requestLock (e : Endpoint) (name : String) (client : ClientId)
    (deadline : Deadline) (now : Nat) :
    (e.requestLock name client deadline now).1.mount = e.mount := by
  unfold Endpoint.requestLock
  split
  · rfl
  · split
    · rfl
    · split <;> rfl

/-- **A file gets an owner only by a request, and loses it only by a call of that owner.** -/
theorem ownerOf_of_turn (h : t.Turn now move t') (f : String) :
    t'.ownerOf f = t.ownerOf f ∨
      (∃ c d, move = .requestLock f c d ∧ t.ownerOf f = none ∧ t'.ownerOf f = some c) ∨
      ∃ j r c, move.number? = some j ∧ t.calls[j]? = some r ∧ r.subject? = some (f, c) ∧
        r.relies = true ∧ t.ownerOf f = some c ∧ t'.ownerOf f = none ∧
        ∀ r', t'.calls[j]? = some r' → r'.relies = false := by
  cases h with
  | @lock name client deadline =>
      rcases ownerOf_requestLock t.endpoint name client deadline now.instant f with same | ⟨rfl, hn, hs⟩
      · exact Or.inl same
      · exact Or.inr (Or.inl ⟨client, deadline, rfl, hn, hs⟩)
  | arrive fresh number => exact Or.inl rfl
  | @go move k r x call acts =>
      rcases acts.stride.locks.ownerOf f with same | ⟨c, hs, hr, hover, ho, ho'⟩
      · exact Or.inl same
      · refine Or.inr (Or.inr ⟨k, r, c, acts.number, call, hs, hr, ho, ho', ?_⟩)
        intro r' hk'
        rw [getElem?_advance call, if_pos rfl] at hk'
        cases hk'
        exact Running.relies_of_isOver hover

/-! ### The mount after a move

Two things have to be kept apart: the entries, which have names that clients can say, and the
temporary files, which have none.  A call changes an entry only when it writes, and its temporary
file whenever it likes.
-/

/-- No call has a temporary file that could be named. -/
def Hidden (t : Traffic) : Prop :=
  ∀ (k : Nat) (r : Running), t.calls[k]? = some r → r.Hides

/-- New temporary files get names that nobody can say, so no call comes to have another kind. -/
theorem hidden_of_turn (h : t.Turn now move t') (ht : t.Hidden) : t'.Hidden := by
  intro k r' hk
  rcases call_of_turn h hk with ⟨hk', -⟩ | ⟨r, hk', acts⟩ | ⟨-, fresh, -⟩
  · exact ht k r' hk'
  · exact acts.stride.mount.hides (ht k r hk')
  · intro τ hτ
    rw [← fresh, Running.temporary?_origin] at hτ
    exact nomatch hτ

/-- **An entry changes only by a step of a call that is about it and writes.** -/
theorem entry_of_turn (h : t.Turn now move t') (ht : t.Hidden) (f : String) :
    t'.entry f = t.entry f ∨
      ∃ k r c, move.number? = some k ∧ t.calls[k]? = some r ∧ r.writes = true ∧
        r.subject? = some (f, c) := by
  cases h with
  | @lock name client deadline =>
      exact Or.inl (congrArg (Mount.get? · (.text f)) (mount_requestLock ..))
  | arrive fresh number => exact Or.inl rfl
  | @go move k r x call acts =>
      rcases acts.stride.mount.get?_text (ht k r call) f with same | ⟨hw, c, hs⟩
      · exact Or.inl same
      · exact Or.inr ⟨k, r, c, acts.number, call, hw, hs⟩

/-- Where the mount is, and what is in the tree besides its entries, stays as it is. -/
theorem outside_of_turn (h : t.Turn now move t') :
    t'.endpoint.mount.place = t.endpoint.mount.place ∧
      ∀ p, (∀ name, p ≠ t.endpoint.mount.placeOf name) →
        t'.endpoint.mount.tree.get? p = t.endpoint.mount.tree.get? p := by
  cases h with
  | @lock name client deadline =>
      have same := mount_requestLock t.endpoint name client deadline now.instant
      exact ⟨congrArg Mount.place same, fun p _ => congrArg (fun m => m.tree.get? p) same⟩
  | arrive fresh number => exact ⟨rfl, fun _ _ => rfl⟩
  | go call acts => exact ⟨acts.stride.mount.place_eq, fun _ => acts.stride.mount.get?_outside⟩

/-! ### Runs

A run is taken apart at its end.  `run_induction` is the induction that all statements about runs
go through, and `Passes` singles out one move of a run, with what has come before it and what is
still to come.
-/

theorem run_append (t : Traffic) (before after : List (Moment × Move)) :
    t.run (before ++ after) = (t.run before).bind fun u => u.run after := by
  induction before generalizing t with
  | nil => rfl
  | cons first rest ih =>
      obtain ⟨now, move⟩ := first
      rw [List.cons_append, run, run, Option.bind_assoc]
      exact congrArg _ (funext fun u => ih u)

/-- The last move of a run is one move after the rest of it. -/
theorem run_concat (t : Traffic) (moves : List (Moment × Move)) (now : Moment) (move : Move) :
    t.run (moves ++ [(now, move)]) = (t.run moves).bind fun u => u.next now move := by
  rw [run_append]
  refine congrArg _ (funext fun u => ?_)
  show (u.next now move).bind some = u.next now move
  exact Option.bind_fun_some _

/-- What holds at the start of a run and is kept by each move holds at its end. -/
theorem run_induction {t₀ : Traffic} {P : List (Moment × Move) → Traffic → Prop}
    (start : P [] t₀)
    (step : ∀ moves t now move t', t₀.run moves = some t → t.next now move = some t' →
      P moves t → P (moves ++ [(now, move)]) t') :
    ∀ moves t, t₀.run moves = some t → P moves t := by
  intro moves
  induction moves using List.reverseRecOn with
  | nil => intro t h; cases h; exact start
  | append_singleton moves last ih =>
      intro t' h
      obtain ⟨now, move⟩ := last
      rw [run_concat] at h
      obtain ⟨t, ht, hnext⟩ := Option.bind_eq_some_iff.1 h
      exact step moves t now move t' ht hnext (ih t ht)

theorem hidden_of_run (e : Endpoint) : ∀ moves t, (idle e).run moves = some t → t.Hidden := by
  refine run_induction (fun k r hk => by simp [idle] at hk) ?_
  exact fun _ _ _ _ _ _ hnext ih => hidden_of_turn (turn_of_next hnext) ih

/-- However long the calls go on, what lies outside the entries of the mount is left alone. -/
theorem outside_of_run (t₀ : Traffic) : ∀ moves t, t₀.run moves = some t →
    t.endpoint.mount.place = t₀.endpoint.mount.place ∧
      ∀ p, (∀ name, p ≠ t₀.endpoint.mount.placeOf name) →
        t.endpoint.mount.tree.get? p = t₀.endpoint.mount.tree.get? p := by
  refine run_induction ⟨rfl, fun _ _ => rfl⟩ ?_
  intro moves t now move t' _ hnext ih
  obtain ⟨place, outside⟩ := outside_of_turn (turn_of_next hnext)
  refine ⟨place.trans ih.1, fun p hp => ?_⟩
  rw [outside p fun name => by rw [Mount.placeOf, ih.1]; exact hp name, ih.2 p hp]

/-- In a run of `moves` the move `move` leads from `t` to `t'`, and `after` is then to come. -/
def Passes (t₀ : Traffic) (moves : List (Moment × Move)) (t : Traffic) (now : Moment)
    (move : Move) (t' : Traffic) (after : List (Moment × Move)) : Prop :=
  ∃ before, moves = before ++ (now, move) :: after ∧ t₀.run before = some t ∧
    t.next now move = some t'

namespace Passes

variable {t₀ t t' : Traffic} {moves after : List (Moment × Move)} {now : Moment} {move : Move}

theorem last (h : t₀.run moves = some t) (hnext : t.next now move = some t') :
    t₀.Passes (moves ++ [(now, move)]) t now move t' [] :=
  ⟨moves, rfl, h, hnext⟩

theorem concat (h : t₀.Passes moves t now move t' after) (m : Moment × Move) :
    t₀.Passes (moves ++ [m]) t now move t' (after ++ [m]) := by
  obtain ⟨before, rfl, ht, hnext⟩ := h
  exact ⟨before, by simp, ht, hnext⟩

/-- A run that goes through passes by each of its moves. -/
theorem of_split {before : List (Moment × Move)} {u : Traffic}
    (h : t₀.run (before ++ (now, move) :: after) = some u) (ht : t₀.run before = some t) :
    ∃ t', t₀.Passes (before ++ (now, move) :: after) t now move t' after := by
  rw [run_append, ht, Option.bind_some, run] at h
  obtain ⟨t', hnext, -⟩ := Option.bind_eq_some_iff.1 h
  exact ⟨t', before, rfl, ht, hnext⟩

theorem run_from (h : t₀.Passes moves t now move t' after) {u : Traffic}
    (hu : t₀.run moves = some u) : t.run ((now, move) :: after) = some u := by
  obtain ⟨before, rfl, ht, -⟩ := h
  rw [run_append, ht] at hu
  exact hu

/-- What comes after a passage is itself a run, from the state that the passage leads to. -/
theorem run_after (h : t₀.Passes moves t now move t' after) {u : Traffic}
    (hu : t₀.run moves = some u) : t'.run after = some u := by
  have hrun := h.run_from hu
  obtain ⟨before, -, -, hnext⟩ := h
  rw [run, hnext] at hrun
  exact hrun

/-- A passage of a longer run is one of the shorter run, or the last move. -/
theorem of_concat {m : Moment × Move} (h : t₀.Passes (moves ++ [m]) t now move t' after) :
    (∃ rest, after = rest ++ [m] ∧ t₀.Passes moves t now move t' rest) ∨
      after = [] ∧ m = (now, move) ∧ t₀.run moves = some t ∧ t.next now move = some t' := by
  obtain ⟨before, hsplit, ht, hnext⟩ := h
  rcases List.eq_nil_or_concat after with rfl | ⟨rest, final, rfl⟩
  · obtain ⟨rfl, hm⟩ := List.append_inj' hsplit rfl
    exact Or.inr ⟨rfl, List.singleton_inj.1 hm, ht, hnext⟩
  · rw [List.concat_eq_append, ← List.cons_append, ← List.append_assoc] at hsplit
    obtain ⟨rfl, hm⟩ := List.append_inj' hsplit rfl
    exact Or.inl ⟨rest, by rw [List.singleton_inj.1 hm, List.concat_eq_append], before, rfl, ht,
      hnext⟩

end Passes

end Traffic

end MountSync
