/-
Calls on different files.

A call on one file leaves every other file alone, so it matters to no call on another file whether
it came before that one or after it: what that call finds is the same, and so is the time it has
left.  Both are told the same either way, both change their own entry and row in the same way, and
what they add to the counters adds up to the same.

A link is where this ends, for it leads from one name to the file of another.
-/
import MountSync.Proofs.Endpoint.Restamped

namespace MountSync

/-- No entry is a link. -/
def Mount.Linkless (m : Mount) : Prop :=
  ∀ entry node, m.get? entry = some node → node.isLink = false

theorem Table.mem_of_lookup {κ α : Type} [DecidableEq κ] {k : κ} {a : α} :
    ∀ {rows : List (κ × α)}, lookup k rows = some a → (k, a) ∈ rows
  | (j, b) :: rest, found => by
      rw [lookup] at found
      split at found
      · rename_i same
        cases found
        exact same ▸ List.mem_cons_self ..
      · exact List.mem_cons_of_mem _ (mem_of_lookup found)

/-- It is enough that there is no link in the whole tree. -/
theorem Mount.linkless_of_rows {m : Mount} (h : ∀ row ∈ m.tree.nodes.rows, row.2.isLink = false) :
    m.Linkless :=
  fun _ _ found => h _ (Table.mem_of_lookup found)

/-! ### The same call at another time

A call that is put behind another one comes later.  It is the same call if its deadline is as far
away then as it was, and what it writes is stamped with another time.
-/

/-- The same call, maybe at another time, if the clock says the same of its deadline. -/
inductive Visit.Again : Visit → Visit → Prop
  | call {request : Request} {d₁ d₂ : Deadline} {t₁ t₂ : Schedule} {stream : List Arrival} :
      Schedule.Alike d₁ t₁ d₂ t₂ →
      Again (.call request d₁ t₁ stream) (.call request d₂ t₂ stream)
  | fetch {name : String} {mine : Option FileVersion} {d₁ d₂ : Deadline} {t₁ t₂ : Schedule}
      {limits : Nat → Nat} {reader : Nat → Handover} : Schedule.Alike d₁ t₁ d₂ t₂ →
      Again (.fetch name mine d₁ t₁ limits reader) (.fetch name mine d₂ t₂ limits reader)
  | expiry {request : Request} : Again (.expiry request) (.expiry request)

namespace Visit

/-- The time that is written on a file that a call stores.  A call that has expired stores none. -/
def calendar : Visit → UnixTime
  | call _ _ times _ | fetch _ _ _ times _ _ => times.transfer.calendar
  | expiry _ => 0

variable {v v' : Visit}

theorem Again.refl (v : Visit) : v.Again v := by
  cases v with
  | call => exact .call ⟨rfl, rfl, rfl⟩
  | fetch => exact .fetch ⟨rfl, rfl, rfl⟩
  | expiry => exact .expiry

theorem Again.symm (h : v.Again v') : v'.Again v := by
  cases h with
  | call alike => exact .call ⟨alike.arrival.symm, alike.decision.symm, alike.transfer.symm⟩
  | fetch alike => exact .fetch ⟨alike.arrival.symm, alike.decision.symm, alike.transfer.symm⟩
  | expiry => exact .expiry

theorem Again.name? (h : v.Again v') : v'.name? = v.name? := by
  cases h <;> rfl

theorem Again.stream (h : v.Again v') : v'.stream = v.stream := by
  cases h <;> rfl

/-- A name that may not be used is refused for the same reason. -/
theorem Again.refusal (h : v.Again v') (f : String) : v'.refusal f = v.refusal f := by
  cases h with
  | @call request _ _ _ _ _ alike =>
      have same := congrArg (fun late => if late = true then Failure.deadlineExceeded
        else .invalidName f) alike.arrival
      cases request <;> first | exact same | rfl
  | fetch => rfl
  | expiry => rfl

end Visit

theorem Restamped.symm {n₁ n₂ : UnixTime} {a b : Option Node} (h : Restamped n₁ n₂ a b) :
    Restamped n₂ n₁ b a := by
  obtain rfl | ⟨⟨content, _, inode, facade⟩, number, rfl, rfl, rfl⟩ := h
  · exact Or.inl rfl
  · exact Or.inr ⟨⟨content, .atSecond n₂, number, facade⟩, inode, rfl, rfl, rfl⟩

/-- What the caller is told, what it is sent, and what is left of what it sends. -/
def Outcome.answer (o : Outcome) : Except Failure Reply × List FetchChunk × List Arrival :=
  (o.result, o.messages, o.rest)

namespace Endpoint

variable {e e₁ e₂ s₁ s₂ : Endpoint} {f g : String} {v v' w w' : Visit}

/-! ### One call on two endpoints

A store is the only call for which the two outcomes differ, and then in the stamp of one entry.
-/

/-- What two outcomes of a call on a file have in common. -/
structure Matches (f : String) (n₁ n₂ : UnixTime) (s₁ s₂ : Endpoint) (o₁ o₂ : Outcome) : Prop where
  answer : o₂.answer = o₁.answer
  books : Books f s₁ s₂ o₁.endpoint o₂.endpoint
  similar : Mount.Similar f n₁ n₂ o₁.endpoint.mount o₂.endpoint.mount

/-- A call that does not write. -/
theorem Matches.of_twin {o₁ o₂ : Outcome} {n₁ n₂ : UnixTime} (answer : o₂.answer = o₁.answer)
    (twin : Twin f s₁ s₂ o₁.endpoint o₂.endpoint) : Matches f n₁ n₂ s₁ s₂ o₁ o₂ :=
  ⟨answer, twin.books, twin.sees.similar⟩

theorem Matches.plain {α : Type} {r₁ r₂ : Endpoint × Except Failure α} {n₁ n₂ : UnixTime}
    (stream : List Arrival) (reply : α → Reply) (told : r₂.2 = r₁.2 ∧ Twin f s₁ s₂ r₁.1 r₂.1) :
    Matches f n₁ n₂ s₁ s₂ (.plain stream reply r₁) (.plain stream reply r₂) :=
  .of_twin (congrArg (fun result => (result.map reply, [], stream)) told.1) told.2

theorem Matches.fetched {r₁ r₂ : Endpoint × Except Failure Nat × List FetchChunk}
    {n₁ n₂ : UnixTime} (stream : List Arrival)
    (told : r₂.2 = r₁.2 ∧ Twin f s₁ s₂ r₁.1 r₂.1) :
    Matches f n₁ n₂ s₁ s₂ (.fetched stream r₁) (.fetched stream r₂) := by
  obtain ⟨e₁, answer⟩ := r₁
  obtain ⟨e₂, _⟩ := r₂
  obtain ⟨rfl, twin⟩ := told
  exact .of_twin rfl twin

/-- **On endpoints that are the same to it a call comes to the same.** -/
theorem Twin.attend (twin : Twin f s₁ s₂ e₁ e₂) (chunkSize : s₂.chunkSize = s₁.chunkSize)
    (name : v.name? = some f) (again : v.Again v') :
    Matches f v.calendar v'.calendar s₁ s₂ (e₁.attend v) (e₂.attend v') := by
  -- A name that is refused is refused before anything is looked at.  With any other, the two calls
  -- look only at what is under the name, which is the same for both.
  cases accepted : Mount.accepts f with
  | false =>
      rw [attend_refused e₁ accepted name, attend_refused e₂ accepted (again.name?.trans name),
        again.refusal, again.stream]
      exact .of_twin rfl twin
  | true =>
      cases again with
      | @fetch name' mine d₁ d₂ t₁ t₂ limits reader alike =>
          cases name
          exact .fetched [] (twin.fetch accepted chunkSize alike mine limits reader)
      | @expiry request =>
          have abandoned : ∀ client, Twin f s₁ s₂ (e₁.abandonExpired f client)
              (e₂.abandonExpired f client) := twin.abandonExpired accepted
          cases request with
          | store header =>
              cases name
              exact .of_twin rfl (abandoned header.client)
          | delete name' client =>
              cases name
              exact .of_twin rfl (abandoned client)
          | _ => exact .of_twin rfl twin
      | @call request d₁ d₂ t₁ t₂ stream alike =>
          cases request with
          | requestLock name' client =>
              cases name
              exact .plain stream (fun _ => .empty) (twin.requestLock alike.arrival)
          | store header =>
              cases name
              obtain ⟨told, books, similar⟩ := twin.storeFrom accepted alike stream
              have answer := congrArg (fun r => (r.1.map Reply.stored, ([] : List FetchChunk), r.2))
                told
              exact ⟨answer, books, similar⟩
          | fetch name' mine =>
              cases name
              exact .fetched stream (twin.fetch accepted chunkSize alike mine _ _)
          | delete name' client =>
              cases name
              exact .plain stream (fun _ => .empty) (twin.delete accepted alike client)
          | list => cases name
          | stat name' =>
              cases name
              exact .plain stream .stat ⟨twin.stat alike.arrival, twin⟩
          | checksum name' client sum =>
              cases name
              exact .plain stream .checksum (twin.probe alike client sum)
          | compareMtime name' mtime =>
              cases name
              have stat := twin.stat alike.arrival
              have told : e₂.compareMtime f mtime d₂ t₂.arrival.instant
                  = e₁.compareMtime f mtime d₁ t₁.arrival.instant := by
                rw [compareMtime, compareMtime, stat]
              exact .plain stream .sameTimestamp ⟨told, twin⟩
          | changeNotification maxWait => cases name

/-! ### Two calls on different files

The first call leaves the endpoint the same to the second, and the second to the first.  So each of
the two comes to the same in either order, and what both have added is a sum.
-/

theorem Twin.refl (linkless : e.mount.Linkless) : Twin f e e e e where
  sees := ⟨rfl, rfl, rfl, linkless _⟩
  books := ⟨rfl, rfl, rfl, fun _ => 0, fun _ => ⟨rfl, rfl⟩⟩

/-- A call leaves an endpoint the same to calls on other files. -/
theorem Elsewhere.twin (h : e.Elsewhere g e₁) (other : f ≠ g) (linkless : e.mount.Linkless) :
    Twin f e e₁ e e₁ where
  sees := {
    place := h.place
    directory := h.nodes _ fun same => e.mount.placeOf_ne_place _ same.symm
    entry := h.get?_ne fun same => other (EntryName.text.inj same)
    plain := linkless _ }
  books := ⟨h.rows f other, rfl, rfl, fun _ => 0, fun _ => ⟨rfl, rfl⟩⟩

theorem elsewhere_attend (e : Endpoint) (name : v.name? = some f) :
    e.Elsewhere f (e.attend v).endpoint :=
  e.endpoint_attend v ▸ e.elsewhere_receive name

/-- **A call comes to the same if another one on another file has come before it.** -/
theorem attend_across (linkless : e.mount.Linkless) (other : f ≠ g) (name : v.name? = some f)
    (again : v.Again v') (name' : w.name? = some g) :
    Matches f v.calendar v'.calendar e (e.attend w).endpoint (e.attend v)
      ((e.attend w).endpoint.attend v') := by
  have unchanged : (e.attend w).endpoint.chunkSize = e.chunkSize :=
    ((Twin.refl linkless).attend rfl name' (.refl w)).books.chunkSize₁
  exact ((e.elsewhere_attend name').twin other linkless).attend unchanged name again

/-- The same endpoint, but for the entries of two names: the same directory with the same at every
other place, the same rows, and the same counters. -/
structure SameBut (f g : String) (e e' : Endpoint) : Prop where
  place : e'.mount.place = e.mount.place
  nodes : ∀ p, p ≠ e.mount.placeOf (.text f) → p ≠ e.mount.placeOf (.text g) →
    e'.mount.tree.get? p = e.mount.tree.get? p
  rows : ∀ file, e'.locks.rows.get? file = e.locks.rows.get? file
  stats : e'.stats = e.stats
  lockStats : e'.locks.stats = e.locks.stats
  feedStats : e'.feed.stats = e.feed.stats

/-- The same was done at two names, in one order and in the other one. -/
theorem sameBut_of_books {a b c d : Endpoint} (other : f ≠ g) (ea : e.Elsewhere f a)
    (ab : a.Elsewhere g b) (ec : e.Elsewhere g c) (cd : c.Elsewhere f d) (atF : Books f e c a d)
    (atG : Books g e a c b) : SameBut f g b d := by
  have rows : ∀ file, d.locks.rows.get? file = b.locks.rows.get? file := by
    intro file
    by_cases isF : file = f
    · rw [isF, atF.row, ab.rows f other]
    by_cases isG : file = g
    · rw [isG, cd.rows g other.symm, atG.row]
    · rw [cd.rows file isF, ec.rows file isG, ab.rows file isG, ea.rows file isF]
  have tally : ∀ k, d.tally k = b.tally k := by
    obtain ⟨δ, addedF⟩ := atF.added
    obtain ⟨ε, addedG⟩ := atG.added
    intro k
    obtain ⟨ea, cd⟩ := addedF k
    obtain ⟨ec, ab⟩ := addedG k
    omega
  obtain ⟨stats, feedStats⟩ := stats_eq_of_tally tally
  refine ⟨?_, ?_, rows, stats, lockStats_eq_of_tally tally rows, feedStats⟩
  · rw [cd.place, ec.place, ab.place, ea.place]
  · intro p notF notG
    have placeB : b.mount.place = e.mount.place := ab.place.trans ea.place
    have notF' : p ≠ e.mount.placeOf (.text f) := by rwa [Mount.placeOf, placeB] at notF
    have notG' : p ≠ e.mount.placeOf (.text g) := by rwa [Mount.placeOf, placeB] at notG
    rw [cd.nodes p (by rwa [Mount.placeOf, ec.place]), ec.nodes p notG',
      ab.nodes p (by rwa [Mount.placeOf, ea.place]), ea.nodes p notF']

/-- **A call is confined to its file, and calls on different files are independent.**  A call
changes no entry and no row but those of its file, and none at all if its name is refused.  Two
calls on different files come to the same in either order, unless there is a link: both callers are
told the same, and the endpoint is the same afterwards but for the time at which the files were
written. -/
theorem calls_apart (e : Endpoint) (name : v.name? = some f) :
    e.Elsewhere f (e.attend v).endpoint ∧
    (∀ root failure, Mount.resolve root f = .error failure →
      (e.attend v).endpoint = e ∧ ∃ failure, (e.attend v).result = .error failure) ∧
    ∀ g w v' w', e.mount.Linkless → f ≠ g → w.name? = some g → v.Again v' → w.Again w' →
      let a := e.attend v
      let b := a.endpoint.attend w
      let c := e.attend w'
      let d := c.endpoint.attend v'
      d.answer = a.answer ∧ c.answer = b.answer ∧ SameBut f g b.endpoint d.endpoint ∧
        Restamped v.calendar v'.calendar (b.endpoint.mount.get? (.text f))
          (d.endpoint.mount.get? (.text f)) ∧
        Restamped w.calendar w'.calendar (b.endpoint.mount.get? (.text g))
          (d.endpoint.mount.get? (.text g)) := by
  refine ⟨e.elsewhere_attend name, ?_, ?_⟩
  · intro root failure refuses
    have refused : Mount.accepts f = false := by
      cases accepted : Mount.accepts f with
      | false => rfl
      | true =>
          rw [Mount.resolve, Mount.checkName, if_pos accepted] at refuses
          cases refuses
    rw [e.attend_refused refused name]
    exact ⟨rfl, _, rfl⟩
  · intro g w v' w' linkless other name' again again' a b c d
    have named : v'.name? = some f := again.name?.trans name
    have named' : w'.name? = some g := again'.name?.trans name'
    have ea : e.Elsewhere f a.endpoint := e.elsewhere_attend name
    have ab : a.endpoint.Elsewhere g b.endpoint := a.endpoint.elsewhere_attend name'
    have ec : e.Elsewhere g c.endpoint := e.elsewhere_attend named'
    have cd : c.endpoint.Elsewhere f d.endpoint := c.endpoint.elsewhere_attend named
    have atF : Matches f v.calendar v'.calendar e c.endpoint a d :=
      attend_across linkless other name again named'
    -- The other call is followed from the run in which it comes first.
    have atG : Matches g w'.calendar w.calendar e a.endpoint c b :=
      attend_across linkless other.symm named' again'.symm name
    refine ⟨atF.answer, atG.answer.symm, sameBut_of_books other ea ab ec cd atF.books atG.books,
      ?_, ?_⟩
    · rw [ab.get?_ne fun same => other (EntryName.text.inj same)]
      exact atF.similar.entry
    · rw [cd.get?_ne fun same => other (EntryName.text.inj same).symm]
      exact atG.similar.entry.symm

/-- An endpoint with two files, one of which alice has locked, and bob the other one. -/
def lockedByBoth : Endpoint :=
  let empty := Mount.empty .bare [.text "m"]
  let mount := (empty.put (.text "f") (.file ⟨[1], .atSecond 5, 7, none⟩)).put (.text "g")
    (.file ⟨[3], .atSecond 6, 8, none⟩)
  (Endpoint.create mount 8 8).withLocks
    ((LockTable.empty.acquire "f" "alice").1.acquire "g" "bob").1

def storeOfAlice (now : UnixTime) : Visit :=
  .call (.store ⟨"f", 1, "alice", checksum [2], 9⟩) ⟨100⟩ (.atOnce ⟨0, now⟩) [.chunk [2], .ended]

def deleteOfBob (now : UnixTime) : Visit := .call (.delete "g" "bob") ⟨100⟩ (.atOnce ⟨0, now⟩) []

def deleteOutside : Visit := .call (.delete "../g" "bob") ⟨100⟩ (.atOnce ⟨0, 50⟩) []

/-- Whoever comes first, both succeed; what is different is when the file of alice was written.  A
delete of something outside the mount does nothing. -/
theorem alice_apart_from_bob :
    let a := lockedByBoth.attend (storeOfAlice 50)
    let b := a.endpoint.attend (deleteOfBob 60)
    let c := lockedByBoth.attend (deleteOfBob 50)
    let d := c.endpoint.attend (storeOfAlice 60)
    a.answer = (.ok (.stored "f"), [], []) ∧ b.answer = (.ok .empty, [], []) ∧
      d.answer = a.answer ∧ c.answer = b.answer ∧ SameBut "f" "g" b.endpoint d.endpoint ∧
      Restamped 50 60 (b.endpoint.mount.get? (.text "f")) (d.endpoint.mount.get? (.text "f")) ∧
      (lockedByBoth.attend deleteOutside).endpoint = lockedByBoth := by
  have linkless : lockedByBoth.mount.Linkless := Mount.linkless_of_rows (by decide)
  have stored : (storeOfAlice 50).name? = some "f" := rfl
  have again : (storeOfAlice 50).Again (storeOfAlice 60) := .call ⟨rfl, rfl, rfl⟩
  have again' : (deleteOfBob 60).Again (deleteOfBob 50) := .call ⟨rfl, rfl, rfl⟩
  obtain ⟨-, -, apart⟩ := calls_apart lockedByBoth stored
  obtain ⟨told, told', same, entry, -⟩ := apart "g" (deleteOfBob 60) (storeOfAlice 60)
    (deleteOfBob 50) linkless (by decide) rfl again again'
  have named : deleteOutside.name? = some "../g" := rfl
  obtain ⟨-, refused, -⟩ := calls_apart lockedByBoth named
  obtain ⟨unchanged, -⟩ := refused "/m" (.invalidName "../g") (by decide)
  exact ⟨by decide +kernel, by decide +kernel, told, told', same, entry, unchanged⟩

end Endpoint

end MountSync
