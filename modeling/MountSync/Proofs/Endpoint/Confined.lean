/-
What a call leaves alone.

A call that names a file works at one place of the tree and on one row of the table.  Its temporary
file is in the same directory, but under a name that nothing has, and it is gone when the call is
over.  So whatever the call is and however it ends, every other place and every other row are as
they were; and a call that may not use its name does nothing at all.
-/
import MountSync.Proofs.Endpoint.Tidy

namespace MountSync

/-- The file that a visit is about. -/
def Visit.name? : Visit → Option String
  | call request _ _ _ => request.file?
  | fetch name _ _ _ _ _ => some name
  | expiry request => request.file?

/-- The outcome of a fetch. -/
def Outcome.fetched (stream : List Arrival)
    (r : Endpoint × Except Failure Nat × List FetchChunk) : Outcome where
  endpoint := r.1
  result := r.2.1.map fun bytes => .fetched (.ofNat bytes)
  messages := r.2.2
  rest := stream

namespace Endpoint

/-- Lets a client do something, and tells all that comes of it. -/
def attend (e : Endpoint) : Visit → Outcome
  | .call request deadline times stream => e.dispatch deadline times stream request
  | .fetch name mine deadline times limits reader =>
    .fetched [] (e.fetch name mine deadline times limits reader)
  | .expiry request => e.expire [] request

theorem endpoint_attend (e : Endpoint) (v : Visit) : (e.attend v).endpoint = e.receive v := by
  cases v <;> rfl

/-! ### Other places and other rows

Calls that run under a lock go by strides, and a stride takes away the lock of the call's own file
only.  A request for a lock is none, and is looked at on its own.
-/

/-- The same directory with the same at every place but that of one entry, and the same rows but
for one file. -/
structure Elsewhere (f : String) (e e' : Endpoint) : Prop where
  place : e'.mount.place = e.mount.place
  nodes : ∀ p, p ≠ e.mount.placeOf (.text f) → e'.mount.tree.get? p = e.mount.tree.get? p
  rows : ∀ file, file ≠ f → e'.locks.rows.get? file = e.locks.rows.get? file

variable {e e' : Endpoint} {f : String}

theorem Elsewhere.get?_ne (h : e.Elsewhere f e') {entry : EntryName} (other : entry ≠ .text f) :
    e'.mount.get? entry = e.mount.get? entry := by
  rw [Mount.get?, Mount.placeOf, h.place]
  exact h.nodes _ fun same => other (e.mount.placeOf_injective same)

/-- Whatever a call does by strides, it changes no row but that of its own file. -/
theorem get?_rows_of_goes {x y : Endpoint × Running} (h : Goes x y) {file : String}
    (other : ∀ client, x.2.subject? ≠ some (file, client)) :
    y.1.locks.rows.get? file = x.1.locks.rows.get? file := by
  have key : y.1.locks.rows.get? file = x.1.locks.rows.get? file ∧
      y.2.subject? = x.2.subject? := by
    induction h with
    | refl => exact ⟨rfl, rfl⟩
    | @tail y z _ stride ih =>
        obtain ⟨row, subject⟩ := ih
        refine ⟨?_, stride.subject?.trans subject⟩
        rw [← row]
        obtain ⟨-, locks, -, -, -, -⟩ := stride
        generalize z.1.locks = t at locks
        have different : ∀ {g client}, y.2.subject? = some (g, client) → file ≠ g :=
          fun own same => other _ (same ▸ subject.symm.trans own)
        cases locks with
        | kept => rfl
        | released own _ _ => exact LockTable.get?_release_ne _ (different own) _
        | deleted own _ _ => exact LockTable.get?_delete_ne _ (different own) _
  exact key.1

theorem get?_rows_of_call {r : Running} (h : ∃ r', Goes (e, r) (e', r')) {name : String}
    {client : ClientId} (own : r.subject? = some (name, client)) {file : String}
    (other : file ≠ name) : e'.locks.rows.get? file = e.locks.rows.get? file := by
  obtain ⟨r', goes⟩ := h
  refine get?_rows_of_goes goes fun client' same => ?_
  exact other (Prod.mk.inj (Option.some.inj (same.symm.trans own))).1

theorem get?_rows_requestLock (e : Endpoint) {name file : String} (other : file ≠ name)
    (client : ClientId) (deadline : Deadline) (now : Nat) :
    (e.requestLock name client deadline now).1.locks.rows.get? file
      = e.locks.rows.get? file := by
  unfold requestLock
  split
  · rfl
  · split
    · rfl
    · have kept := e.locks.get?_acquire_ne other client
      split
      · rename_i locks granted
        rw [granted] at kept
        exact kept
      · rename_i locks refused
        rw [refused] at kept
        exact kept

/-- A call that leaves the mount as it was has changed a row at most. -/
theorem Elsewhere.of_same (mount : e.mount.SameAs e'.mount)
    (rows : ∀ file, file ≠ f → e'.locks.rows.get? file = e.locks.rows.get? file) :
    e.Elsewhere f e' :=
  ⟨mount.place, fun p _ => mount.nodes p, rows⟩

/-- A call that puts one entry in place or takes it away has changed that one. -/
theorem Elsewhere.of_puts {entry : Option Node} (mount : e.mount.Puts f entry e'.mount)
    (rows : ∀ file, file ≠ f → e'.locks.rows.get? file = e.locks.rows.get? file) :
    e.Elsewhere f e' :=
  ⟨mount.place, mount.others, rows⟩

theorem Elsewhere.refl (f : String) (e : Endpoint) : e.Elsewhere f e :=
  .of_same (.refl _) fun _ _ => rfl

theorem elsewhere_fetch (e : Endpoint) (name : String) (mine : Option FileVersion)
    (deadline : Deadline) (s : Schedule) (limits : Nat → Nat) (reader : Nat → Handover) :
    e.Elsewhere f (e.fetch name mine deadline s limits reader).1 := by
  obtain ⟨mount, locks⟩ := e.still_fetch name mine deadline s limits reader
  exact .of_same (.of_eq mount) fun file _ => congrArg (fun t => t.rows.get? file) locks

/-- **A call changes one entry at most, and one row.** -/
theorem elsewhere_receive (e : Endpoint) {v : Visit} (name : v.name? = some f) :
    e.Elsewhere f (e.receive v) := by
  have abandoned : ∀ client, e.Elsewhere f (e.abandonExpired f client) := fun client =>
    .of_same (.of_eq (e.mount_abandonExpired f client)) fun _ other =>
      get?_rows_of_call (e.abandonExpired_goes f client) rfl other
  cases v with
  | fetch name mine deadline times limits reader => exact e.elsewhere_fetch ..
  | expiry request =>
      cases request with
      | store header =>
          cases name
          exact abandoned header.client
      | delete name' client =>
          cases name
          exact abandoned client
      | _ => exact .refl f e
  | call request deadline times stream =>
      cases request with
      | requestLock name' client =>
          cases name
          exact .of_same (.of_eq (Traffic.mount_requestLock ..)) fun _ other =>
            e.get?_rows_requestLock other ..
      | store header =>
          cases name
          have rows := fun file (other : file ≠ header.name) =>
            get?_rows_of_call (e.storeFrom_goes header deadline times stream) rfl other
          rcases e.mount_storeFrom header deadline times stream with same | ⟨-, _, -, placed⟩
          · exact .of_same same rows
          · obtain ⟨_, puts, -⟩ := placed.entry
            exact .of_puts puts rows
      | fetch name' mine => exact e.elsewhere_fetch ..
      | delete name' client =>
          cases name
          have rows := fun file (other : file ≠ f) =>
            get?_rows_of_call (e.delete_goes f client deadline times) rfl other
          rcases e.mount_delete f client deadline times with same | removed
          · exact .of_same (.of_eq same) rows
          · exact .of_puts (Mount.puts_of_removeFile removed).2 rows
      | list => exact .refl f e
      | stat name' => exact .refl f e
      | checksum name' client sum =>
          cases name
          exact .of_same (.of_eq (e.mount_probe ..)) fun _ other =>
            get?_rows_of_call (e.probe_goes f client sum deadline times.arrival) rfl other
      | compareMtime name' mtime => exact .refl f e
      | changeNotification maxWait => exact nomatch name

/-! ### Names that calls may not use

The name is looked at before anything is done under it.  The calls differ in whether the clock is
looked at first: a store, a delete and a fetch look at the name first.
-/

/-- What a call that looks at the clock first says of a name that it may not use. -/
def refusal (f : String) (d : Deadline) (now : Nat) : Failure :=
  if d.isExpired now then .deadlineExceeded else .invalidName f

section

variable (refused : Mount.accepts f = false) (e : Endpoint) (d : Deadline)
include refused

theorem statFile_refused (m : Mount) : m.statFile f = .error (.invalidName f) := by
  rw [Mount.statFile, Mount.checkName_of_refused refused]

theorem requestLock_refused (client : ClientId) (now : Nat) :
    e.requestLock f client d now = (e, .error (refusal f d now)) := by
  rw [requestLock, refusal, Mount.checkName_of_refused refused]
  split <;> rfl

theorem stat_refused (now : Nat) : e.stat f d now = .error (refusal f d now) := by
  rw [stat, refusal, statFile_refused refused]
  split <;> rfl

theorem compareMtime_refused (mtime : UnixTime) (now : Nat) :
    e.compareMtime f mtime d now = .error (refusal f d now) := by
  rw [compareMtime, stat_refused refused]

theorem probe_refused (client : ClientId) (sum : UInt32) (now : Moment) :
    e.probe f client sum d now = (e, .error (refusal f d now.instant)) := by
  have first : (ProbeCall.begin f client sum d).step e now
      = (e, (ProbeCall.begin f client sum d).finish (.error (refusal f d now.instant))) := by
    unfold ProbeCall.step
    dsimp only [ProbeCall.begin]
    rw [stat_refused refused]
  rw [probe, first]
  rfl

theorem delete_refused (client : ClientId) (t : Schedule) :
    e.delete f client d t = (e, .error (.invalidName f)) := by
  have first : (DeleteCall.begin f client d).step e t.arrival
      = (e, (DeleteCall.begin f client d).fail (.invalidName f)) := by
    show (e, (DeleteCall.begin f client d).checkCaller e) = _
    rw [DeleteCall.checkCaller, show Mount.checkName (DeleteCall.begin f client d).name
      = .error (.invalidName f) from Mount.checkName_of_refused refused]
  rw [delete, first]
  rfl

theorem fetch_refused (mine : Option FileVersion) (t : Schedule) (limits : Nat → Nat)
    (reader : Nat → Handover) :
    e.fetch f mine d t limits reader = (e, .error (.invalidName f), []) := by
  have first : (FetchCall.begin f mine d).step e t.arrival (limits 0)
      = (e, (FetchCall.begin f mine d).fail (.invalidName f)) := by
    show (e, (FetchCall.begin f mine d).lookUp e) = _
    rw [FetchCall.lookUp, show e.mount.statFile (FetchCall.begin f mine d).name
      = .error (.invalidName f) from statFile_refused refused e.mount]
  rw [fetch, FetchCall.enter, first]
  rfl

theorem storeFrom_refused {h : StoreHeader} (name : h.name = f) (t : Schedule)
    (stream : List Arrival) :
    e.storeFrom h d t stream = (e, .error (.invalidName f), stream) := by
  subst name
  have first : (StoreCall.begin h d).step e t.arrival
      = (e, (StoreCall.begin h d).fail (.invalidName h.name)) := by
    show (e, (StoreCall.begin h d).checkCaller e t.arrival) = _
    rw [StoreCall.checkCaller, show Mount.checkName (StoreCall.begin h d).name
      = .error (.invalidName h.name) from Mount.checkName_of_refused refused]
  have entered : (StoreCall.begin h d).enter e t
      = (e, (StoreCall.begin h d).fail (.invalidName h.name)) := by
    rw [StoreCall.enter_eq first]
    rfl
  have ended : ((StoreCall.begin h d).fail (.invalidName h.name)).phase
      = .finished (.error (.invalidName h.name)) := rfl
  have drunk := StoreCall.drink_eq_of_finished e t.transfer ended stream
  rw [storeFrom_eq e h d t stream entered drunk]
  rfl

theorem abandonExpired_refused (client : ClientId) : e.abandonExpired f client = e := by
  have first : (ExpiryCall.begin f client).step e
      = (e, (ExpiryCall.begin f client).goTo .finished) := by
    show (if Mount.accepts f && e.locks.isOwner f client then _ else _) = _
    rw [refused]
    rfl
  rw [abandonExpired, first]
  rfl

end

end Endpoint

namespace Visit

/-- What is left of a stream that nobody asks for. -/
def stream : Visit → List Arrival
  | call _ _ _ stream => stream
  | fetch _ _ _ _ _ _ | expiry _ => []

/-- What is said of a name that may not be used. -/
def refusal (f : String) : Visit → Failure
  | call (.requestLock _ _) d times _ | call (.stat _) d times _
  | call (.checksum _ _ _) d times _ | call (.compareMtime _ _) d times _ =>
    Endpoint.refusal f d times.arrival.instant
  | call _ _ _ _ | fetch _ _ _ _ _ _ => .invalidName f
  | expiry _ => .deadlineExceeded

end Visit

/-- **A call on a name that may not be used fails and changes nothing.** -/
theorem Endpoint.attend_refused (e : Endpoint) {f : String} (refused : Mount.accepts f = false)
    {v : Visit} (name : v.name? = some f) :
    e.attend v = ⟨e, .error (v.refusal f), [], v.stream⟩ := by
  cases v with
  | fetch name' mine deadline times limits reader =>
      cases name
      exact congrArg (Outcome.fetched [])
        (fetch_refused refused e deadline mine times limits reader)
  | expiry request =>
      have late : ∀ {e' : Endpoint}, e' = e → (⟨e', .error .deadlineExceeded, [], []⟩ : Outcome)
          = ⟨e, .error .deadlineExceeded, [], []⟩ := fun same => by rw [same]
      cases request with
      | store header =>
          cases name
          exact late (abandonExpired_refused refused e header.client)
      | delete name' client =>
          cases name
          exact late (abandonExpired_refused refused e client)
      | _ => rfl
  | call request deadline times stream =>
      cases request with
      | requestLock name' client =>
          cases name
          exact congrArg (Outcome.plain stream fun _ => .empty)
            (requestLock_refused refused e deadline client _)
      | store header =>
          exact congrArg (fun r => (⟨r.1, r.2.1.map .stored, [], r.2.2⟩ : Outcome))
            (storeFrom_refused refused e deadline (Option.some.inj name) times stream)
      | fetch name' mine =>
          cases name
          exact congrArg (Outcome.fetched stream) (fetch_refused refused e deadline mine times _ _)
      | delete name' client =>
          cases name
          exact congrArg (Outcome.plain stream fun _ => .empty)
            (delete_refused refused e deadline client times)
      | list => exact nomatch name
      | stat name' =>
          cases name
          exact congrArg (fun r => Outcome.plain stream .stat (e, r))
            (stat_refused refused e deadline _)
      | checksum name' client sum =>
          cases name
          exact congrArg (Outcome.plain stream .checksum)
            (probe_refused refused e deadline client sum _)
      | compareMtime name' mtime =>
          cases name
          exact congrArg (fun r => Outcome.plain stream .sameTimestamp (e, r))
            (compareMtime_refused refused e deadline mtime _)
      | changeNotification maxWait => exact nomatch name

end MountSync
