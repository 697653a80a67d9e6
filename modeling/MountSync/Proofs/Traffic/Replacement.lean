/-
What a store compares is what it replaces.

A store compares the copies early and puts its content in place late.  If every client has at most
one call on a file at a time there is no other call that could write to the file in between, so the
entry that is replaced is the one that was there when the copies were compared.

A comparison follows links, and the replacement does not.  So if the entry is a link, it is still
the same link, but what it leads to is a file of its own, with a lock of its own.
-/
import MountSync.Proofs.Traffic.Failure

namespace MountSync

/-! ### Stores between their comparison and their end

A store that transfers has compared, and it goes on doing so until the content is in place.
-/

/-- The store has decided to go on, and has not put its content in place yet. -/
def StorePhase.transfers : StorePhase → Bool
  | .opening | .receiving _ | .complete _ => true
  | _ => false

namespace StoreCall

variable {e e' : Endpoint} {now : Moment} {c c' : StoreCall}

theorem transfers_decideCopy (h : (c.decideCopy e now).2.phase.transfers = true) :
    (c.decideCopy e now).1 = e ∧
      ∃ found, e.mount.statFile c.name = .ok found ∧
        resolve .store (found.map FileRecord.version) c.header.version = .proceed := by
  unfold decideCopy at h ⊢
  cases hstat : e.mount.statFile c.name with
  | error failure => simp [hstat, goTo, StorePhase.transfers] at h
  | ok found =>
      cases hr : resolve .store (found.map FileRecord.version) c.header.version with
      | alreadySynced => simp [hstat, hr, goTo, StorePhase.transfers] at h
      | staleSource => simp [hstat, hr, goTo, StorePhase.transfers] at h
      | proceed =>
          refine ⟨?_, found, rfl, hr⟩
          simp only [hr]
          split <;> rfl

theorem transfers_checkCaller : (c.checkCaller e now).phase.transfers = false := by
  unfold checkCaller
  split
  · rfl
  · split
    · rfl
    · split <;> rfl

theorem transfers_installContent (intake : Intake) :
    (c.installContent e intake).2.phase.transfers = false := by
  unfold installContent
  split <;> rfl

theorem transfers_conclude (received : Nat) :
    (c.conclude e received).2.phase.transfers = false := by
  unfold conclude
  dsimp only
  split <;> rfl

/-- A store transfers because it did so before, or because the comparison did not stop it. -/
theorem transfers_step (hstep : c.step e now = (e', c')) (h : c'.phase.transfers = true) :
    c.phase.transfers = true ∧ c.phase.writes = false ∨
      c.phase = .owner ∧ e' = e ∧
        ∃ found, e.mount.statFile c.name = .ok found ∧
          resolve .store (found.map FileRecord.version) c.header.version = .proceed := by
  obtain rfl : (c.step e now).1 = e' := congrArg Prod.fst hstep
  obtain rfl : (c.step e now).2 = c' := congrArg Prod.snd hstep
  unfold step at h ⊢
  cases hp : c.phase with
  | owner =>
      rw [hp] at h
      exact Or.inr ⟨rfl, transfers_decideCopy h⟩
  | opening => exact Or.inl ⟨rfl, rfl⟩
  | receiving intake => exact Or.inl ⟨rfl, rfl⟩
  | complete intake => simp [hp, transfers_installContent] at h
  | arrived => simp [hp, transfers_checkCaller] at h
  | expired =>
      simp only [hp] at h
      split at h <;> simp [fail, goTo, StorePhase.transfers] at h
  | installed received => simp [hp, transfers_conclude] at h
  | givingUp failure => simp [hp, goTo, StorePhase.transfers] at h
  | disposing failure present => simp [hp, fail, goTo, StorePhase.transfers] at h
  | finished result => simp [hp, StorePhase.transfers] at h

/-- What the stream brings begins no transfer, and while one goes on it changes no mount. -/
theorem transfers_take {a : Arrival} (htake : c.take e now a = (e', c'))
    (h : c'.phase.transfers = true) : c.phase.transfers = true ∧ e' = e := by
  obtain rfl : (c.take e now a).1 = e' := congrArg Prod.fst htake
  obtain rfl : (c.take e now a).2 = c' := congrArg Prod.snd htake
  unfold take at h ⊢
  cases hp : c.phase with
  | receiving intake =>
      simp only [hp] at h
      refine ⟨rfl, ?_⟩
      cases a with
      | chunk piece =>
          dsimp only at h ⊢
          split at h
          · simp [reject, goTo, StorePhase.transfers] at h
          · rename_i hsize
            rw [if_neg hsize]
      | ended =>
          dsimp only at h ⊢
          split at h
          · simp [reject, goTo, StorePhase.transfers] at h
          · rfl
      | refused failure => simp [reject, goTo, StorePhase.transfers] at h
      | broken failure => simp [reject, goTo, StorePhase.transfers] at h
      | late => simp [reject, goTo, StorePhase.transfers] at h
  | opening => exact ⟨rfl, rfl⟩
  | complete intake => exact ⟨rfl, rfl⟩
  | _ => simp [hp, StorePhase.transfers] at h

end StoreCall

namespace Traffic

variable {t₀ t t' : Traffic} {moves : List (Moment × Move)} {now : Moment} {move : Move}
variable {k : Nat} {e : Endpoint}

/-! ### From the comparison to the replacement

The moment of the comparison is kept, and with it what was found.  As long as the run is orderly
nobody has changed the entry since.
-/

/-- In a run of `moves`, `u` is the traffic in which store `k` compares the copies; it finds
`found` on the server, and goes on. -/
def Compares (t₀ : Traffic) (moves : List (Moment × Move)) (k : Nat) (header : StoreHeader)
    (u : Traffic) (found : Option FileRecord) : Prop :=
  ∃ deadline now limit u' after, t₀.Passes moves u now (.step k limit) u' after ∧
    u.calls[k]? = some (.store ⟨header, deadline, .owner⟩) ∧
    u.endpoint.mount.statFile header.name = .ok found ∧
    resolve .store (found.map FileRecord.version) header.version = .proceed

theorem Compares.concat {header : StoreHeader} {u : Traffic} {found : Option FileRecord}
    (h : t₀.Compares moves k header u found) (m : Moment × Move) :
    t₀.Compares (moves ++ [m]) k header u found := by
  obtain ⟨deadline, now, limit, u', after, hp, rest⟩ := h
  exact ⟨deadline, now, limit, u', _, hp.concat m, rest⟩

theorem relies_of_transfers {p : StorePhase} (h : p.transfers = true) : p.relies = true := by
  cases p <;> first | rfl | exact nomatch h

/-- The entry that a store is going to replace is the one that it compared with. -/
theorem entry_of_transfers (e : Endpoint) : ∀ moves t, (idle e).run moves = some t →
    (idle e).OrderlyRun moves → ∀ (k : Nat) (c : StoreCall), t.calls[k]? = some (.store c) →
      c.phase.transfers = true →
      ∃ u found, (idle e).Compares moves k c.header u found ∧ t.entry c.name = u.entry c.name := by
  refine run_induction (fun _ k c hk => by simp [idle] at hk) ?_
  intro moves t now move t' hrun hnext ih orderly k c' hk' transfers
  -- It was so before the last move, and the move has not changed the entry.
  have before : ∀ c : StoreCall, t.calls[k]? = some (.store c) → c.phase.transfers = true →
      c'.header = c.header → (move.number? = some k → c.phase.writes = false) →
      ∃ u found, (idle e).Compares (moves ++ [(now, move)]) k c'.header u found ∧
        t'.entry c'.name = u.entry c'.name := by
    intro c hk htr header quiet
    obtain ⟨u, found, hcomp, hentry⟩ := ih orderly.of_concat k c hk htr
    have kept : t'.entry c.name = t.entry c.name :=
      entry_of_relies hrun orderly.of_concat hnext hk (relies_of_transfers htr) rfl quiet
    refine ⟨u, found, header ▸ hcomp.concat _, ?_⟩
    rw [StoreCall.name, header]
    exact kept.trans hentry
  rcases call_of_turn (turn_of_next hnext) hk' with ⟨hk, hother⟩ | ⟨r, hk, acts⟩ | ⟨-, fresh, -⟩
  · exact before c' hk transfers rfl fun hnum => absurd hnum hother
  · have header := acts.stride.origin
    cases acts with
    | @store c _ _ limit hstep =>
        rcases StoreCall.transfers_step hstep transfers with
          ⟨htr, hquiet⟩ | ⟨howner, hsame, found, hstat, hres⟩
        · exact before c hk htr (Running.header_of_origin header) fun _ => hquiet
        · -- This is the comparison.
          have hend : t'.endpoint = t.endpoint := hsame
          have hh := Running.header_of_origin header
          refine ⟨t, found, ⟨c.deadline, now, limit, t', [], .last hrun hnext, ?_, ?_, ?_⟩, ?_⟩
          · rw [hk, hh, ← howner]
          · rw [hh]
            exact hstat
          · rw [hh]
            exact hres
          · rw [entry, hend, entry]
    | @take c _ _ a htake =>
        obtain ⟨htr, hsame⟩ := StoreCall.transfers_take htake transfers
        have hend : t'.endpoint = t.endpoint := hsame
        have hh := Running.header_of_origin header
        obtain ⟨u, found, hcomp, hentry⟩ := ih orderly.of_concat k c hk htr
        refine ⟨u, found, hh ▸ hcomp.concat _, ?_⟩
        rw [StoreCall.name, hh, entry, hend]
        exact hentry
  · rw [Running.phase_of_fresh_store fresh] at transfers
    simp [StorePhase.transfers] at transfers

/-! ### No lost update -/

theorem statFile_of_entry {moves before : List (Moment × Move)} {t u : Traffic} {name : String}
    (h : (idle e).run moves = some t) (hu : (idle e).run before = some u)
    (entry : t.entry name = u.entry name)
    (plain : ∀ node, t.entry name = some node → node.isLink = false) :
    t.endpoint.mount.statFile name = u.endpoint.mount.statFile name := by
  obtain ⟨place, outside⟩ := outside_of_run (idle e) moves t h
  obtain ⟨place', outside'⟩ := outside_of_run (idle e) before u hu
  have away : ∀ name, (idle e).endpoint.mount.place ≠ (idle e).endpoint.mount.placeOf name :=
    fun name => (Mount.placeOf_ne_place _ name).symm
  refine Mount.statFile_congr (place.trans place'.symm) ?_ entry fun node hnode => ?_
  · rw [place', outside _ away, outside' _ away]
  · exact plain node (entry.trans hnode)

/--
**A store replaces what it has compared with, if every client waits for its calls.**

When a store is about to put its content in place, the entry of its file is the one that was there
when the copies were compared, and unless it is a link, looking at the file finds what the
comparison found.  A delete never fails with an internal failure, and a store only with one that
its own stream has brought.  What the file system refuses is a failure of another kind.
-/
theorem replaces_compared {moves : List (Moment × Move)} {t : Traffic}
    (h : (idle e).run moves = some t) (orderly : (idle e).OrderlyRun moves) :
    (∀ (k : Nat) (c : StoreCall) (intake : Intake), t.calls[k]? = some (.store c) →
      c.phase = .complete intake →
      ∃ u found, (idle e).Compares moves k c.header u found ∧ t.entry c.name = u.entry c.name ∧
        ((∀ node, t.entry c.name = some node → node.isLink = false) →
          t.endpoint.mount.statFile c.name = .ok found)) ∧
    (∀ (k : Nat) (c : StoreCall) (failure : Failure), t.calls[k]? = some (.store c) →
      c.result? = some (.error failure) → failure.kind = .internal →
      ∃ now a, (now, Move.stream k a) ∈ moves ∧ a.failure? = some failure) ∧
    ∀ (k : Nat) (c : DeleteCall) (failure : Failure), t.calls[k]? = some (.delete c) →
      c.result? = some (.error failure) → failure.kind ≠ .internal := by
  refine ⟨?_, ?_, ?_⟩
  · intro k c intake hk hp
    obtain ⟨u, found, hcomp, hentry⟩ :=
      entry_of_transfers e moves t h orderly k c hk (by rw [hp]; rfl)
    refine ⟨u, found, hcomp, hentry, fun plain => ?_⟩
    obtain ⟨deadline, now, limit, u', after, ⟨before, -, hu, -⟩, -, hstat, -⟩ := hcomp
    rw [statFile_of_entry h hu hentry plain]
    exact hstat
  · intro k c failure hk hr
    exact internal_of_store e moves t h orderly k c failure hk (StoreCall.failure_of_result hr)
  · intro k c failure hk hr
    exact not_internal_of_delete e moves t h orderly k c failure hk
      (DeleteCall.failure_of_result hr)

/-! ### A store to a link

Alice stores to a link, and Bob to the file that it leads to.  Alice compares with the old content
of that file, and Bob replaces it before all of hers is there.
-/

/-- An endpoint with a file and a link to it. -/
def linkedEndpoint : Endpoint :=
  let mount := (Mount.empty .bare [.text "m"]).put (.text "g") (.file ⟨[1], .atSecond 5, 7, none⟩)
  .create (mount.put (.text "f") (.link "g")) 8 8

/-- Both stores have begun, and Bob's is complete. -/
def twoStores : List (Moment × Move) :=
  atOnce [.requestLock "f" "alice" ⟨100⟩, .requestLock "g" "bob" ⟨100⟩,
    .beginStore (headerOf "f" "alice" [2, 2] 9) ⟨100⟩, .step 0 0, .step 0 0, .step 0 0,
    .beginStore (headerOf "g" "bob" [3] 9) ⟨100⟩, .step 1 0, .step 1 0, .step 1 0,
    .stream 1 (.chunk [3]), .stream 1 .ended]

/-- Bob's store ends before Alice's is complete. -/
def bobFirst : List (Moment × Move) :=
  twoStores ++ atOnce [.step 1 0, .step 1 0, .stream 0 (.chunk [2, 2]), .stream 0 .ended]

theorem complete_of_writes {c : StoreCall} (h : c.phase.writes = true) :
    ∃ intake, c.phase = .complete intake := by
  cases hp : c.phase with
  | complete intake => exact ⟨intake, rfl⟩
  | _ => rw [hp] at h; exact nomatch h

/-- The next step of the store compares the copies. -/
def StorePhase.compares : StorePhase → Bool
  | .owner => true
  | _ => false

theorem owner_of_compares {c : StoreCall} (h : StorePhase.compares c.phase = true) :
    c.phase = .owner := by
  cases hp : c.phase with
  | owner => rfl
  | _ => rw [hp] at h; exact nomatch h

/-- What is to be seen of a store in a run, and what is found under a name. -/
def glance (k : Nat) (name : String) (t : Traffic) :
    Option (StoreHeader × Bool × Bool) × Option (Option FileRecord) :=
  ((t.calls[k]?.bind Running.store?).map fun c =>
      (c.header, StorePhase.compares c.phase, c.phase.writes),
    (t.endpoint.mount.statFile name).toOption)

theorem of_glance {moves : List (Moment × Move)} {k : Nat} {name : String}
    {v : StoreHeader × Bool × Bool} {found : Option FileRecord}
    (h : (t₀.run moves).map (glance k name) = some (some v, some found)) :
    ∃ t c, t₀.run moves = some t ∧ t.calls[k]? = some (.store c) ∧ c.header = v.1 ∧
      StorePhase.compares c.phase = v.2.1 ∧ c.phase.writes = v.2.2 ∧
      t.endpoint.mount.statFile name = .ok found := by
  obtain ⟨t, ht, hview⟩ := Option.map_eq_some_iff.1 h
  obtain ⟨hcall, hstat⟩ := Prod.mk.inj hview
  obtain ⟨c, hc, rfl⟩ := Option.map_eq_some_iff.1 hcall
  refine ⟨t, c, ht, getElem?_of_store? hc, rfl, rfl, rfl, ?_⟩
  cases hs : t.endpoint.mount.statFile name with
  | error failure => rw [hs] at hstat; exact nomatch hstat
  | ok record => rw [hs] at hstat; exact congrArg _ (Option.some.inj hstat)

/-- What a store has compared with need not be what the file is when it is replaced. -/
theorem link_not_compared :
    ¬ ∀ (e : Endpoint) (moves : List (Moment × Move)) (t : Traffic) (k : Nat) (c : StoreCall)
      (intake : Intake) (u : Traffic) (found : Option FileRecord),
      (idle e).run moves = some t → (idle e).OrderlyRun moves →
      t.calls[k]? = some (.store c) → c.phase = .complete intake →
      (idle e).Compares moves k c.header u found →
      t.endpoint.mount.statFile c.name = .ok found := by
  intro claim
  have atStart : ((idle linkedEndpoint).run (bobFirst.take 4)).map (glance 0 "f")
      = some (some (headerOf "f" "alice" [2, 2] 9, true, false),
          some (some ⟨"f", 1, checksum [1], 5, 5⟩)) := by decide +kernel
  have atEnd : ((idle linkedEndpoint).run bobFirst).map (glance 0 "f")
      = some (some (headerOf "f" "alice" [2, 2] 9, false, true),
          some (some ⟨"f", 1, checksum [3], 50, 50⟩)) := by decide +kernel
  have orderly : (idle linkedEndpoint).OrderlyRun bobFirst :=
    orderlyRun_of_subjects [some ("f", "alice"), some ("g", "bob")] (by decide)
      (by decide +kernel)
  obtain ⟨u, c, hu, hc, hheader, hcompares, -, hfound⟩ := of_glance atStart
  obtain ⟨t, c', ht, hc', hheader', -, hwrites, hstat⟩ := of_glance atEnd
  obtain ⟨intake, hcomplete⟩ := complete_of_writes hwrites
  have split : (idle linkedEndpoint).run
      (bobFirst.take 4 ++ (⟨0, 50⟩, .step 0 0) :: bobFirst.drop 5) = some t := ht
  obtain ⟨u', hp⟩ := Passes.of_split split hu
  have compares : (idle linkedEndpoint).Compares bobFirst 0 c'.header u
      (some ⟨"f", 1, checksum [1], 5, 5⟩) := by
    refine ⟨c.deadline, _, _, u', _, hp, ?_, ?_, ?_⟩
    · rw [hc, hheader', ← hheader, ← owner_of_compares hcompares]
    · rw [hheader']
      exact hfound
    · rw [hheader']
      decide +kernel
  have compared := claim linkedEndpoint bobFirst t 0 c' intake u _ ht orderly hc' hcomplete compares
  rw [StoreCall.name, hheader', show (headerOf "f" "alice" [2, 2] 9).name = "f" from rfl,
    hstat] at compared
  exact absurd (Except.ok.inj compared) (by decide)

/-- A stream that breaks with an internal failure. -/
def brokenStream : List (Moment × Move) :=
  atOnce [.requestLock "f" "alice" ⟨100⟩, .beginStore (headerOf "f" "alice" [2] 9) ⟨100⟩,
    .step 0 0, .step 0 0, .step 0 0, .stream 0 (.broken (.reported .internal "lost")),
    .step 0 0, .step 0 0]

/-- The failure that a call ended with, if it failed. -/
def failureOf? {α : Type} : Except Failure α → Option Failure
  | .error failure => some failure
  | .ok _ => none

/-- A store can fail with an internal failure that is not its own. -/
theorem internal_of_stream :
    ¬ ∀ (e : Endpoint) (moves : List (Moment × Move)) (t : Traffic) (k : Nat) (c : StoreCall)
      (failure : Failure), (idle e).run moves = some t → (idle e).OrderlyRun moves →
      t.calls[k]? = some (.store c) → c.result? = some (.error failure) →
      failure.kind ≠ .internal := by
  intro claim
  have atEnd : ((idle emptyEndpoint).run brokenStream).map (fun t =>
      (t.calls[0]?.bind Running.store?).map fun c => c.result?.bind failureOf?)
        = some (some (some (.reported .internal "lost"))) := by decide +kernel
  have orderly : (idle emptyEndpoint).OrderlyRun brokenStream :=
    orderlyRun_of_subjects [some ("f", "alice")] (by decide) (by decide +kernel)
  obtain ⟨t, ht, hcall⟩ := Option.map_eq_some_iff.1 atEnd
  obtain ⟨c, hc, hfailure⟩ := Option.map_eq_some_iff.1 hcall
  obtain ⟨result, hresult, hfailed⟩ := Option.bind_eq_some_iff.1 hfailure
  cases result with
  | ok name => cases hfailed
  | error failure =>
      cases hfailed
      exact claim emptyEndpoint brokenStream t 0 c _ ht orderly (getElem?_of_store? hc) hresult rfl

/-- **A store to a link may replace what it has not compared with, and a store may pass on an
internal failure of its stream.** -/
theorem limits_of_comparison :
    (¬ ∀ (e : Endpoint) (moves : List (Moment × Move)) (t : Traffic) (k : Nat) (c : StoreCall)
      (intake : Intake) (u : Traffic) (found : Option FileRecord),
      (idle e).run moves = some t → (idle e).OrderlyRun moves →
      t.calls[k]? = some (.store c) → c.phase = .complete intake →
      (idle e).Compares moves k c.header u found →
      t.endpoint.mount.statFile c.name = .ok found) ∧
    ¬ ∀ (e : Endpoint) (moves : List (Moment × Move)) (t : Traffic) (k : Nat) (c : StoreCall)
      (failure : Failure), (idle e).run moves = some t → (idle e).OrderlyRun moves →
      t.calls[k]? = some (.store c) → c.result? = some (.error failure) →
      failure.kind ≠ .internal :=
  ⟨link_not_compared, internal_of_stream⟩

/-- Bob's file is no link, and it still is what he has compared with. -/
theorem twoStores_compared :
    ∃ t c intake u found, (idle linkedEndpoint).run twoStores = some t ∧
      (idle linkedEndpoint).OrderlyRun twoStores ∧ t.calls[1]? = some (.store c) ∧
      c.phase = .complete intake ∧ (idle linkedEndpoint).Compares twoStores 1 c.header u found ∧
      t.entry c.name = u.entry c.name ∧ t.endpoint.mount.statFile c.name = .ok found := by
  have atEnd : ((idle linkedEndpoint).run twoStores).map (glance 1 "g")
      = some (some (headerOf "g" "bob" [3] 9, false, true),
          some (some ⟨"g", 1, checksum [1], 5, 5⟩)) := by decide +kernel
  have plain : ((idle linkedEndpoint).run twoStores).map (fun t => t.entry "g")
      = some (some (.file ⟨[1], .atSecond 5, 7, none⟩)) := by decide +kernel
  have orderly : (idle linkedEndpoint).OrderlyRun twoStores :=
    orderlyRun_of_subjects [some ("f", "alice"), some ("g", "bob")] (by decide)
      (by decide +kernel)
  obtain ⟨t, c, ht, hc, hheader, -, hwrites, -⟩ := of_glance atEnd
  obtain ⟨intake, hcomplete⟩ := complete_of_writes hwrites
  obtain ⟨u, found, compares, same, stat⟩ := (replaces_compared ht orderly).1 1 c intake hc hcomplete
  refine ⟨t, c, intake, u, found, ht, orderly, hc, hcomplete, compares, same, stat ?_⟩
  intro node hnode
  have hg : t.entry "g" = some (.file ⟨[1], .atSecond 5, 7, none⟩) := by
    rw [ht] at plain
    exact Option.some.inj plain
  rw [StoreCall.name, hheader, show (headerOf "g" "bob" [3] 9).name = "g" from rfl, hg] at hnode
  cases hnode
  rfl

end Traffic

end MountSync
