/-
A lock protects its file from everybody else.

A call that nothing overlaps is a number of strides, one after another.  A *bystander* of a lock
is a call of another client, or one on another file.  It never comes to rely on that lock: to do
so it would have to find its own client in the row of the file, and there is somebody else.  And
without relying on the lock it can neither give it away nor write to the file.

Nothing but the row is looked at on the way, so it makes no difference whether a call succeeds or
which of its many ways out it takes.
-/
import MountSync.Proofs.Traffic.Run
import MountSync.Server.Basic
import Mathlib.Logic.Relation

namespace MountSync

/-! ### Calls that run alone

A call that runs alone is a particular order of its steps.  All that is needed of that order is that
it consists of strides, so what is shown here says nothing of how many there are.
-/

/-- A call takes some strides with nothing in between. -/
def Goes : Endpoint × Running → Endpoint × Running → Prop :=
  Relation.ReflTransGen fun x y => Stride x.1 x.2 y.1 y.2

theorem Goes.trans {x y z : Endpoint × Running} (h : Goes x y) (h' : Goes y z) : Goes x z :=
  Relation.ReflTransGen.trans h h'

theorem Stride.goes {e e' : Endpoint} {r r' : Running} (h : Stride e r e' r') :
    Goes (e, r) (e', r') := Relation.ReflTransGen.single h

namespace StoreCall

variable (e : Endpoint) (now : Moment) (c : StoreCall)

/-- Three steps, of which the later ones may do nothing. -/
theorem settle_goes :
    Goes (e, .store c) ((c.settle e now).1, .store (c.settle e now).2) := by
  have first := (c.step_stride e now).goes
  have second := ((c.step e now).2.step_stride (c.step e now).1 now).goes
  exact (first.trans second).trans (step_stride _ now _).goes

theorem enter_goes (s : Schedule) :
    Goes (e, .store c) ((c.enter e s).1, .store (c.enter e s).2) := by
  have first := (c.step_stride e s.arrival).goes
  have second := ((c.step e s.arrival).2.step_stride (c.step e s.arrival).1 s.decision).goes
  exact (first.trans second).trans (settle_goes _ s.transfer _)

theorem takeAndSettle_goes (a : Arrival) :
    Goes (e, .store c) ((c.takeAndSettle e now a).1, .store (c.takeAndSettle e now a).2) :=
  (c.take_stride e now a).goes.trans (settle_goes _ now _)

/-- By induction on the stream: each part of it is taken, and the steps that follow are taken. -/
theorem drink_goes (stream : List Arrival) :
    Goes (e, .store c) ((c.drink e now stream).1, .store (c.drink e now stream).2.1) := by
  induction stream generalizing e c with
  | nil => exact c.takeAndSettle_goes e now .late
  | cons a rest ih =>
      unfold drink
      split
      · exact (c.takeAndSettle_goes e now a).trans (ih _ _)
      · exact Relation.ReflTransGen.refl

end StoreCall

theorem FetchCall.run_goes (now : Moment) (limits : Nat → Nat) (reader : Nat → Handover)
    (fuel sent : Nat) (e : Endpoint) (c : FetchCall) :
    Goes (e, .fetch c) ((run now limits reader fuel sent e c).1,
      .fetch (run now limits reader fuel sent e c).2.1) := by
  induction fuel generalizing sent e c with
  | zero => exact Relation.ReflTransGen.refl
  | succ fuel ih =>
      unfold run
      cases c.phase with
      | finished result => exact Relation.ReflTransGen.refl
      | offering message next =>
          exact (handOver_stride e c (reader sent)).goes.trans (ih _ _ _)
      | _ => exact (step_stride e now (limits sent) c).goes.trans (ih _ _ _)

namespace Endpoint

variable (e : Endpoint)

/-- From its beginning to its result a store goes by strides. -/
theorem storeFrom_goes (header : StoreHeader) (deadline : Deadline) (s : Schedule)
    (stream : List Arrival) :
    ∃ r, Goes (e, .store (.begin header deadline))
      ((e.storeFrom header deadline s stream).1, r) :=
  ⟨_, (StoreCall.enter_goes e _ s).trans (StoreCall.drink_goes _ s.transfer _ stream)⟩

theorem fetch_goes (name : String) (mine : Option FileVersion) (deadline : Deadline)
    (s : Schedule) (limits : Nat → Nat) (reader : Nat → Handover) :
    ∃ r, Goes (e, .fetch (.begin name mine deadline))
      ((e.fetch name mine deadline s limits reader).1, r) := by
  have first := (FetchCall.step_stride e s.arrival (limits 0) (.begin name mine deadline)).goes
  have second := first.trans (FetchCall.step_stride _ s.decision (limits 0) _).goes
  have third := second.trans (FetchCall.step_stride _ s.transfer (limits 0) _).goes
  have fourth := third.trans (FetchCall.step_stride _ s.transfer (limits 0) _).goes
  exact ⟨_, fourth.trans (FetchCall.run_goes s.transfer limits reader _ 0 _ _)⟩

theorem delete_goes (name : String) (client : ClientId) (deadline : Deadline) (s : Schedule) :
    ∃ r, Goes (e, .delete (.begin name client deadline))
      ((e.delete name client deadline s).1, r) := by
  have first := (DeleteCall.step_stride e s.arrival (.begin name client deadline)).goes
  have second := first.trans (DeleteCall.step_stride _ s.decision _).goes
  have third := second.trans (DeleteCall.step_stride _ s.transfer _).goes
  have fourth := third.trans (DeleteCall.step_stride _ s.transfer _).goes
  exact ⟨_, fourth.trans (DeleteCall.step_stride _ s.transfer _).goes⟩

theorem probe_goes (name : String) (client : ClientId) (checksum : UInt32) (deadline : Deadline)
    (now : Moment) :
    ∃ r, Goes (e, .probe (.begin name client checksum deadline))
      ((e.probe name client checksum deadline now).1, r) := by
  have first := (ProbeCall.step_stride e now (.begin name client checksum deadline)).goes
  have second := first.trans (ProbeCall.step_stride _ now _).goes
  exact ⟨_, second.trans (ProbeCall.step_stride _ now _).goes⟩

theorem abandonExpired_goes (name : String) (client : ClientId) :
    ∃ r, Goes (e, .expiry (.begin name client)) (e.abandonExpired name client, r) := by
  have first := (ExpiryCall.step_stride e (.begin name client)).goes
  have second := first.trans (ExpiryCall.step_stride _ _).goes
  exact ⟨_, second.trans (ExpiryCall.step_stride _ _).goes⟩

end Endpoint

/-! ### Bystanders

The invariant has two halves: the owner is who it was, and the call has not come to rely on the
lock.  Each stride keeps both, the first because of the second.
-/

/-- A call that is none of the owner's of a file. -/
structure Bystander (f : String) (owner : ClientId) (r : Running) : Prop where
  foreign : r.subject? ≠ some (f, owner)
  /-- What it relies on is the lock of another file. -/
  aside : r.relies = true → ∀ d, r.subject? ≠ some (f, d)
  hides : r.Hides

/-- The owner still owns the file, and what is in the mount under its name is the same. -/
def Endpoint.Leaves (f : String) (owner : ClientId) (e e' : Endpoint) : Prop :=
  e'.locks.ownerOf f = some owner ∧ e'.mount.get? (.text f) = e.mount.get? (.text f)

section

variable {f : String} {owner : ClientId} {e e' e'' : Endpoint} {r r' : Running}

theorem Endpoint.Leaves.trans (h : e.Leaves f owner e') (h' : e'.Leaves f owner e'') :
    e.Leaves f owner e'' :=
  ⟨h'.1, h'.2.trans h.2⟩

/-- A call that has just come is a bystander unless it is one of the owner's. -/
theorem Bystander.of_fresh (fresh : r.origin = r) (foreign : r.subject? ≠ some (f, owner)) :
    Bystander f owner r where
  foreign := foreign
  aside := fun relies => by
    rw [← fresh, Running.relies_origin] at relies
    exact nomatch relies
  hides := fun τ hτ => by
    rw [← fresh, Running.temporary?_origin] at hτ
    exact nomatch hτ

/-- A stride of a bystander leaves the owner and the file alone. -/
theorem Stride.leaves (h : Stride e r e' r') (held : e.locks.ownerOf f = some owner)
    (b : Bystander f owner r) : e.Leaves f owner e' := by
  constructor
  · rcases h.locks.ownerOf f with same | ⟨d, subject, relies, -⟩
    · exact same.trans held
    · exact absurd subject (b.aside relies d)
  · rcases h.mount.get?_text b.hides f with same | ⟨writes, d, subject⟩
    · exact same
    · exact absurd subject (b.aside (Running.relies_of_writes writes) d)

/-- A bystander stays one: it does not find itself to be the owner. -/
theorem Stride.bystander (h : Stride e r e' r') (held : e.locks.ownerOf f = some owner)
    (b : Bystander f owner r) : Bystander f owner r' where
  foreign := by
    rw [h.subject?]
    exact b.foreign
  aside := by
    intro relies d subject
    rw [h.subject?] at subject
    rcases h.check relies with before | ⟨g, d', subject', owned⟩
    · exact b.aside before d subject
    · obtain ⟨rfl, rfl⟩ := Prod.mk.inj (Option.some.inj (subject.symm.trans subject'))
      obtain rfl := Option.some.inj (held.symm.trans owned)
      exact b.foreign subject
  hides := h.mount.hides b.hides

/-- By induction on the strides, with the call remaining a bystander all the way. -/
theorem Goes.leaves {x y : Endpoint × Running} (h : Goes x y)
    (held : x.1.locks.ownerOf f = some owner) (b : Bystander f owner x.2) :
    x.1.Leaves f owner y.1 := by
  have key : x.1.Leaves f owner y.1 ∧ Bystander f owner y.2 := by
    induction h with
    | refl => exact ⟨⟨held, rfl⟩, b⟩
    | tail _ stride ih =>
        obtain ⟨left, b⟩ := ih
        exact ⟨left.trans (stride.leaves left.1 b), stride.bystander left.1 b⟩
  exact key.1

/-- A call that is none of the owner's leaves the owner and the file alone. -/
theorem leaves_of_call (held : e.locks.ownerOf f = some owner)
    (h : ∃ r', Goes (e, r) (e', r')) (fresh : r.origin = r)
    (foreign : r.subject? ≠ some (f, owner)) : e.Leaves f owner e' := by
  obtain ⟨r', goes⟩ := h
  exact goes.leaves held (.of_fresh fresh foreign)

/-- Asking for the lock of a file that has an owner does not change the owner. -/
theorem leaves_requestLock (held : e.locks.ownerOf f = some owner) (name : String)
    (client : ClientId) (deadline : Deadline) (now : Nat) :
    e.Leaves f owner (e.requestLock name client deadline now).1 := by
  refine ⟨?_, congrArg (Mount.get? · (.text f)) (Traffic.mount_requestLock ..)⟩
  rcases Traffic.ownerOf_requestLock e name client deadline now f with same | ⟨-, free, -⟩
  · exact same.trans held
  · rw [held] at free
    exact nomatch free

end

/-! ### One call after another

A visit is what one client has done at an endpoint, either a call or the expiry of one.  Requests
without a client, such as a fetch, count as made by somebody else than the owner.
-/

/-- The client under whose id a request is made; some are made under none. -/
def Request.client? : Request → Option ClientId
  | requestLock _ client => some client
  | store header => some header.client
  | delete _ client => some client
  | checksum _ client _ => some client
  | fetch _ _ | list | stat _ | compareMtime _ _ | changeNotification _ => none

/-- What a client can have done on an endpoint. -/
inductive Visit
  /-- A call is carried out.  `stream` is the content behind a store. -/
  | call (request : Request) (deadline : Deadline) (times : Schedule) (stream : List Arrival)
  /-- A fetch is carried out for a reader that may be slow or gone. -/
  | fetch (name : String) (mine : Option FileVersion) (deadline : Deadline) (times : Schedule)
      (limits : Nat → Nat) (reader : Nat → Handover)
  /-- A call expires before its turn comes. -/
  | expiry (request : Request)

def Visit.client? : Visit → Option ClientId
  | call request _ _ _ => request.client?
  | fetch _ _ _ _ _ _ => none
  | expiry request => request.client?

namespace Endpoint

def receive (e : Endpoint) : Visit → Endpoint
  | .call request deadline times stream => (e.dispatch deadline times stream request).endpoint
  | .fetch name mine deadline times limits reader =>
    (e.fetch name mine deadline times limits reader).1
  | .expiry request => (e.expire [] request).endpoint

variable {f : String} {owner : ClientId} {e : Endpoint}

theorem locks_manifest (e : Endpoint) (now maxWait : Nat) (deadline : Deadline) :
    (e.manifest now maxWait deadline).1.locks = e.locks ∧
      (e.manifest now maxWait deadline).1.mount = e.mount := by
  have poll : ∀ (e : Endpoint) (now : Nat) (c : ManifestCall),
      (c.poll e now).1.locks = e.locks ∧ (c.poll e now).1.mount = e.mount := by
    intro e now c
    cases c with
    | finished result => exact ⟨rfl, rfl⟩
    | waiting w =>
        unfold ManifestCall.poll
        dsimp only
        split <;> exact ⟨rfl, rfl⟩
  have start : (ManifestCall.begin e now maxWait deadline).1.locks = e.locks ∧
      (ManifestCall.begin e now maxWait deadline).1.mount = e.mount := by
    unfold ManifestCall.begin
    split <;> exact ⟨rfl, rfl⟩
  obtain ⟨hl, hm⟩ := poll (ManifestCall.begin e now maxWait deadline).1
    ((ManifestCall.begin e now maxWait deadline).2.nextInstant now)
    (ManifestCall.begin e now maxWait deadline).2
  exact ⟨hl.trans start.1, hm.trans start.2⟩

/-- Each of the nine requests is a call of the kinds above, or changes neither rows nor entries. -/
theorem leaves_dispatch (held : e.locks.ownerOf f = some owner) (deadline : Deadline)
    (times : Schedule) (stream : List Arrival) {request : Request}
    (other : request.client? ≠ some owner) :
    e.Leaves f owner (e.dispatch deadline times stream request).endpoint := by
  have foreign : ∀ name client, request.client? = some client →
      some (name, client) ≠ some (f, owner) := by
    intro name client hc same
    obtain ⟨-, rfl⟩ := Prod.mk.inj (Option.some.inj same)
    exact other hc
  cases request with
  | requestLock name client => exact leaves_requestLock held ..
  | store header => exact leaves_of_call held (e.storeFrom_goes ..) rfl (foreign _ _ rfl)
  | fetch name mine => exact leaves_of_call held (e.fetch_goes ..) rfl nofun
  | delete name client => exact leaves_of_call held (e.delete_goes ..) rfl (foreign _ _ rfl)
  | checksum name client sum =>
      exact leaves_of_call held (e.probe_goes ..) rfl (foreign _ _ rfl)
  | list => exact ⟨held, rfl⟩
  | stat name => exact ⟨held, rfl⟩
  | compareMtime name mtime => exact ⟨held, rfl⟩
  | changeNotification maxWait =>
      obtain ⟨hl, hm⟩ := e.locks_manifest times.arrival.instant maxWait.toNat deadline
      exact ⟨(congrArg (LockTable.ownerOf · f) hl).trans held,
        congrArg (Mount.get? · (.text f)) hm⟩

theorem leaves_expire (held : e.locks.ownerOf f = some owner) (stream : List Arrival)
    {request : Request} (other : request.client? ≠ some owner) :
    e.Leaves f owner (e.expire stream request).endpoint := by
  have abandon : ∀ name client, request.client? = some client →
      e.Leaves f owner (e.abandonExpired name client) := by
    intro name client hc
    refine leaves_of_call held (e.abandonExpired_goes name client) rfl fun same => ?_
    obtain ⟨-, rfl⟩ := Prod.mk.inj (Option.some.inj same)
    exact other hc
  cases request with
  | store header => exact abandon _ _ rfl
  | delete name client => exact abandon _ _ rfl
  | _ => exact ⟨held, rfl⟩

theorem leaves_receive (held : e.locks.ownerOf f = some owner) {v : Visit}
    (other : v.client? ≠ some owner) : e.Leaves f owner (e.receive v) := by
  cases v with
  | call request deadline times stream => exact leaves_dispatch held deadline times stream other
  | fetch name mine deadline times limits reader =>
      exact leaves_of_call held (e.fetch_goes ..) rfl nofun
  | expiry request => exact leaves_expire held [] other

/--
**A lock protects the file from everybody but its owner.**

While one client owns a file, others may make any calls with any names, contents and deadlines,
and calls of theirs may expire: the client owns the file afterwards, and in the mount there is
under its name what was there before.
-/
theorem leaves_visits (held : e.locks.ownerOf f = some owner) (visits : List Visit)
    (others : ∀ v ∈ visits, v.client? ≠ some owner) :
    (visits.foldl receive e).locks.ownerOf f = some owner ∧
      (visits.foldl receive e).mount.get? (.text f) = e.mount.get? (.text f) := by
  induction visits generalizing e with
  | nil => exact ⟨held, rfl⟩
  | cons v rest ih =>
      obtain ⟨first, others⟩ := List.forall_mem_cons.1 others
      have left := leaves_receive held first
      exact left.trans (ih left.1 others)

/-- An endpoint with one file, which alice has locked. -/
def lockedByAlice : Endpoint :=
  let mount := (Mount.empty .bare [.text "m"]).put (.text "f") (.file ⟨[1], .atSecond 5, 7, none⟩)
  (Endpoint.create mount 8 8).withLocks (LockTable.empty.acquire "f" "alice").1

/-- Bob asks for the lock, removes the file, and writes to it. -/
def visitsOfBob : List Visit :=
  let now := Schedule.atOnce ⟨0, 50⟩
  [.call (.requestLock "f" "bob") ⟨100⟩ now [], .call (.delete "f" "bob") ⟨100⟩ now [],
    .call (.store ⟨"f", 1, "bob", checksum [2], 9⟩) ⟨100⟩ now [.chunk [2], .ended]]

theorem alice_protected_from_bob :
    lockedByAlice.locks.ownerOf "f" = some "alice" ∧
      (∀ v ∈ visitsOfBob, v.client? ≠ some "alice") ∧
      (visitsOfBob.foldl receive lockedByAlice).locks.ownerOf "f" = some "alice" ∧
      (visitsOfBob.foldl receive lockedByAlice).mount.get? (.text "f")
        = some (.file ⟨[1], .atSecond 5, 7, none⟩) := by
  have held : lockedByAlice.locks.ownerOf "f" = some "alice" := by decide
  have others : ∀ v ∈ visitsOfBob, v.client? ≠ some "alice" := by decide
  obtain ⟨owned, same⟩ := leaves_visits held visitsOfBob others
  exact ⟨held, others, owned, same.trans (by decide)⟩

end Endpoint

end MountSync
