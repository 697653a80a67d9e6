/-
No lock is left behind.

A store and a delete ask for the lock of their file on one connection and give it back on another
one.  If both connections come through, the lock is free again when the call is over, whichever way
the server takes to let go of it; if the lock was not granted there is no second connection, and
nothing to give back.  All other calls need no lock.  So if no lock is held in the beginning, none
is held between any two calls, whichever of the clients make them, one after another; and a client
that asks for a lock is never told that somebody else holds it.

A client that asks for a lock of its own accord keeps it, and a call whose second connection is lost
leaves it to whoever made the call.  Both are left out here.  How long the calls take, and whether
the server finds that their time is over, makes no difference.
-/
import MountSync.Proofs.Client.Exhausted
import MountSync.Proofs.Client.Understood
import MountSync.Proofs.Cluster.RoundTrip
import MountSync.Proofs.Sync.Pass
import Mathlib.Logic.Function.Basic

namespace MountSync

/-! ### Connections that come through -/

namespace Shared

/-- Whether all calls that are to come get through. -/
def Intact (w : Shared) : Prop := ∀ p ∈ w.coming, p.Intact

/-- Whether nobody owns any file on the server. -/
def Unlocked (w : Shared) : Prop := w.server.endpoint.Unlocked

variable {w : Shared}

theorem Intact.next (h : w.Intact) : w.next.Intact := by
  unfold Shared.next
  cases coming : w.coming with
  | nil => exact ⟨rfl, rfl, rfl, rfl⟩
  | cons p rest => exact h p (coming ▸ .head _)

/-- The server serves all that is sent, and all of its answer is heard. -/
theorem Intact.exchange (h : w.Intact) (patience : Nat) (frames : List ClientFrame) :
    ∃ (s : Server) (times : Schedule), s.endpoint = w.server.endpoint ∧
      ∀ s' answers, s.serve times (frames.map .ofClientFrame) = (s', answers) →
        ∃ w', w.exchange patience frames = (w', .ok (answersOf answers)) ∧
          w'.server.endpoint = s'.endpoint ∧ w'.Intact := by
  refine ⟨{ w.server with busy := w.next.busy }, w.next.times.notBefore w.ready, rfl, ?_⟩
  intro s' answers served
  obtain ⟨w', came, endpoint, coming, -⟩ := h.next.exchange patience served
  refine ⟨w', came, endpoint, ?_⟩
  intro p mem
  rw [coming] at mem
  exact h p (List.mem_of_mem_tail mem)

end Shared

namespace Site

variable {x : Site Shared} {α : Type}

/-! ### One call

`Clear` holds between two calls, and in between it does not: from the moment at which a lock is
granted to the call under it, one client may own one file.
-/

/-- A client of short name all of whose calls get through, at a server on which no lock is held. -/
structure Clear (x : Site Shared) : Prop where
  named : Frame.TextFits x.name
  intact : x.world.Intact
  unlocked : x.world.Unlocked

/-- A call that leaves everything clear, and does not fail because of a lock. -/
structure Returns (x : Site Shared) (r : Site Shared × Except Failure α) : Prop where
  config : r.1.config = x.config
  clear : r.1.Clear
  kind : ∀ g, r.2 = .error g → g.kind ≠ .resourceExhausted

theorem returns_of_error {y : Site Shared} {g : Failure} (config : y.config = x.config)
    (clear : y.Clear) (kind : g.kind ≠ .resourceExhausted) :
    x.Returns ((y, .error g) : Site Shared × Except Failure α) := by
  refine ⟨config, clear, ?_⟩
  intro failure is
  cases is
  exact kind

/-- A call that fails before anything is sent. -/
theorem Clear.fails (h : x.Clear) {g : Failure} (kind : g.kind ≠ .resourceExhausted) :
    x.Returns ((x, .error g) : Site Shared × Except Failure α) :=
  returns_of_error rfl h kind

theorem Returns.map {β : Type} {r : Site Shared × Except Failure α} (h : x.Returns r) (f : α → β) :
    x.Returns (r.map id (Except.map f)) := by
  refine ⟨h.config, h.clear, ?_⟩
  intro g failed
  exact h.kind g (Failure.of_map failed)

/-- A call after which all locks are free. -/
theorem returns_askFor (what : String) (take : Reply → Option α) {timeout : Nat} {request : Request}
    {more : List ClientFrame} (named : Frame.TextFits x.name) {w : Shared}
    {answers : List ServerFrame}
    (exchanged : x.exchanged Peer.shared timeout request more = (w, .ok (answersOf answers)))
    (quiet : ∀ f ∈ answers, ¬ f.Exhausts) (intact : w.Intact) (unlocked : w.Unlocked) :
    x.Returns (x.askFor Peer.shared timeout request more what take) := by
  obtain ⟨client, world, -⟩ := x.askFor_eq Peer.shared timeout request more what take
  rw [exchanged] at world
  have config : (x.askFor Peer.shared timeout request more what take).1.config = x.config :=
    congrArg Client.config client
  refine ⟨config, ⟨?_, world ▸ intact, world ▸ unlocked⟩, ?_⟩
  · rw [Site.name, ← Site.config, config]
    exact named
  · intro g failed
    refine kind_of_askFor ?_ failed
    intro messages came
    cases (congrArg Prod.snd exchanged).symm.trans came
    exact not_exhausts_answersOf quiet

/-- A call that is for no lock. -/
theorem Clear.askFor (h : x.Clear) {request : Request} (noLock : ¬ Reply.empty.Suits request)
    (timeout : Nat) (more : List ClientFrame) (what : String) (take : Reply → Option α) :
    x.Returns (x.askFor Peer.shared timeout request more what take) := by
  obtain ⟨s, times, endpoint, exchanged⟩ := h.intact.exchange timeout
    (.call (.ofNat timeout) request :: more)
  obtain ⟨s', answers, served, quiet, unlocked⟩ := s.serve_of_unlocked
    (by rw [endpoint]; exact h.unlocked) noLock times (.ofNat timeout) (more.map .ofClientFrame)
  obtain ⟨w, came, endpoint', intact⟩ := exchanged s' answers served
  refine returns_askFor what take h.named came quiet intact ?_
  rw [Shared.Unlocked, endpoint']
  exact unlocked

/-- What comes of asking for a lock where none is held.  Both calls that are sent under the client's
name are read as ones of the same file and client, so the one undoes what the other one has done. -/
inductive Asked (x : Site Shared) (name : String) : Site Shared × Except Failure Unit → Prop
  | failed {y : Site Shared} {g : Failure} : y.config = x.config → y.Clear →
      g.kind ≠ .resourceExhausted → Asked x name (y, .error g)
  | granted {y : Site Shared} {name' client' : String} : y.client = x.client → y.world.Intact →
      ClientFrame.decode (ClientFrame.call (.ofNat x.config.deadline)
        (.requestLock name x.name)).encode
          = .ok (.call (.ofNat x.config.deadline) (.requestLock name' client')) →
      ClientFrame.decode (ClientFrame.call (.ofNat x.config.deadline) (.delete name x.name)).encode
        = .ok (.call (.ofNat x.config.deadline) (.delete name' client')) →
      Mount.accepts name' = true → y.world.server.endpoint.HeldBy name' client' →
      Asked x name (y, .ok ())

theorem Clear.requestLock (h : x.Clear) (name : String) :
    x.Asked name (x.requestLock Peer.shared name) := by
  obtain ⟨client, world, told⟩ := x.askFor_eq Peer.shared x.config.deadline
    (.requestLock name x.name) [] "lock reply" noContent?
  obtain ⟨s, times, endpoint, exchanged⟩ := h.intact.exchange x.config.deadline
    [.call (.ofNat x.config.deadline) (.requestLock name x.name)]
  have unlocked : s.endpoint.Unlocked := by
    rw [endpoint]
    exact h.unlocked
  -- Unless the lock is granted there is no reply, and all locks are still free.
  have refused : ∀ w answers,
      x.exchanged Peer.shared x.config.deadline (.requestLock name x.name) []
        = (w, .ok (answersOf answers)) → (∀ f ∈ answers, ¬ f.Exhausts) → w.Intact → w.Unlocked →
      (∀ reply, Message.replyIn (answersOf answers) ≠ .ok reply) →
      x.Asked name (x.requestLock Peer.shared name) := by
    intro w answers came quiet intact unlocked silent
    have returns : x.Returns (x.requestLock Peer.shared name) :=
      returns_askFor _ _ h.named came quiet intact unlocked
    rcases asked : x.requestLock Peer.shared name with ⟨y, result⟩
    rw [asked] at returns
    cases result with
    | error g => exact .failed returns.config returns.clear (returns.kind g rfl)
    | ok u =>
        obtain ⟨messages, reply, came', replied, -⟩ := told u (congrArg Prod.snd asked)
        cases (congrArg Prod.snd came).symm.trans came'
        exact absurd replied (silent reply)
  rcases ClientFrame.decode_requestLock (.ofNat x.config.deadline) name x.name with
    ⟨fault, unread⟩ | ⟨name', client', read, undo⟩
  · obtain ⟨s', served, endpoint'⟩ := s.serve_of_unread times [] unread
    obtain ⟨w, came, same, intact⟩ := exchanged s' [] served
    refine refused w [] came nofun intact ?_ fun reply => nofun
    rw [Shared.Unlocked, same, endpoint']
    exact unlocked
  · obtain ⟨s', answers, served, quiet, ⟨rfl, accepted, held⟩ | ⟨⟨status, rfl⟩, free⟩⟩ :=
      s.serve_requestLock_of_unlocked unlocked times read
    · obtain ⟨w, came, same, intact⟩ := exchanged s' _ served
      have granted : x.requestLock Peer.shared name = ({ x with world := w }, .ok ()) :=
        askFor_of_reply came trivial rfl
      rw [granted]
      exact .granted rfl intact read undo accepted (same ▸ held)
    · obtain ⟨w, came, same, intact⟩ := exchanged s' _ served
      refine refused w _ came quiet intact ?_ (replyIn_cut_refusal .whole status)
      rw [Shared.Unlocked, same]
      exact free

/-- A call under the lock that has been granted. -/
theorem returns_of_heldBy {y : Site Shared} (named : Frame.TextFits x.name)
    (client : y.client = x.client) (intact : y.world.Intact) {name' client' : String}
    (accepted : Mount.accepts name' = true) (held : y.world.server.endpoint.HeldBy name' client')
    {timeout : Nat} {request request' : Request}
    (read : ClientFrame.decode (ClientFrame.call (.ofNat timeout) request).encode
      = .ok (.call (.ofNat timeout) request'))
    (holder : request'.lockHolder? = some (name', client')) (more : List ClientFrame)
    (what : String) (take : Reply → Option α) :
    x.Returns (y.askFor Peer.shared timeout request more what take) := by
  obtain ⟨s, times, endpoint, exchanged⟩ := intact.exchange timeout
    (.call (.ofNat timeout) request :: more)
  have held' : s.endpoint.HeldBy name' client' := by
    rw [endpoint]
    exact held
  obtain ⟨s', answers, served, quiet, unlocked⟩ := s.serve_of_heldBy held' accepted times
    (more.map .ofClientFrame) read holder
  obtain ⟨w, came, same, intact'⟩ := exchanged s' answers served
  have named' : Frame.TextFits y.name := by
    rw [Site.name, client]
    exact named
  have unlocked' : w.Unlocked := by
    rw [Shared.Unlocked, same]
    exact unlocked
  have returns := returns_askFor what take named' came quiet intact' unlocked'
  exact ⟨returns.config.trans (congrArg Client.config client), returns.clear, returns.kind⟩

/-! ### The calls of a client

Only a store and a delete ask for a lock, and whatever comes of asking they make the second call if
and only if it was granted.
-/

theorem kind_of_ownRecord {name : String} {g : Failure} (h : x.ownRecord name = .error g) :
    g.kind ≠ .resourceExhausted := by
  unfold ownRecord localRecord at h
  split at h
  · rename_i refused
    cases h
    exact (Mount.plain_of_statFile refused).2
  · cases h
    exact nofun
  · exact nomatch h

/-- A call that needs the client's own copy. -/
theorem Clear.withRecord (h : x.Clear) {name : String}
    {go : FileRecord → Site Shared × Except Failure α}
    (goes : ∀ record, x.mount.statFile name = .ok (some record) → x.Returns (go record)) :
    x.Returns (match x.ownRecord name with
      | .error failure => (x, .error failure)
      | .ok record => go record) := by
  cases own : x.ownRecord name with
  | error failure => exact h.fails (kind_of_ownRecord own)
  | ok record =>
      refine goes record ?_
      unfold ownRecord localRecord at own
      split at own
      · exact nomatch own
      · exact nomatch own
      · rename_i found
        cases own
        exact found

theorem Clear.store (h : x.Clear) (name : String) : x.Returns (x.store Peer.shared name) := by
  unfold Site.store
  refine h.withRecord fun record stat => ?_
  by_cases empty : record.size = 0
  · rw [if_pos empty]
    exact h.fails nofun
  rw [if_neg empty]
  have asked := h.requestLock name
  generalize x.requestLock Peer.shared name = r at asked ⊢
  cases asked with
  | failed config clear kind => exact returns_of_error config clear kind
  | @granted y name' client' client intact read _ accepted held =>
      have nameFits := Mount.textFits_of_statFile stat
      obtain ⟨-, place, f, -, -, rfl⟩ := Mount.file_of_statFile stat
      -- Names that fit are read as they are.
      have lockFits : (Request.requestLock name x.name).Fits := ⟨nameFits, h.named⟩
      have lockRead : ClientFrame.decode (ClientFrame.call (.ofNat x.config.deadline)
          (.requestLock name x.name)).encode
            = .ok (.call (.ofNat x.config.deadline) (.requestLock name x.name)) :=
        ClientFrame.decode_encode_nil (f := .call _ (.requestLock name x.name)) lockFits
      cases lockRead.symm.trans read
      have same : y.headerFor (Mount.recordOf name f f.content)
          = x.headerFor (Mount.recordOf name f f.content) := by
        rw [headerFor, headerFor, Site.name, Site.name, client]
      have fits : (x.headerFor (Mount.recordOf name f f.content)).Fits := ⟨nameFits, h.named⟩
      dsimp only
      rw [same]
      exact returns_of_heldBy h.named client intact accepted held
        (ClientFrame.decode_encode_nil (f := .call _ (.store _)) fits) rfl _ _ _

theorem Clear.delete (h : x.Clear) (name : String) : x.Returns (x.delete Peer.shared name) := by
  unfold Site.delete
  have asked := h.requestLock name
  generalize x.requestLock Peer.shared name = r at asked ⊢
  cases asked with
  | failed config clear kind => exact returns_of_error config clear kind
  | @granted y name' client' client intact _ undo accepted held =>
      have config : y.config = x.config := congrArg Client.config client
      dsimp only
      rw [Site.name, ← Site.config, config]
      exact returns_of_heldBy h.named client intact accepted held undo rfl _ _ _

theorem Clear.fetch (h : x.Clear) (name : String) : x.Returns (x.fetch Peer.shared name) := by
  unfold Site.fetch localRecord
  cases stat : x.mount.statFile name with
  | error failure => exact h.fails (Mount.plain_of_statFile stat).2
  | ok found =>
      obtain ⟨s, times, endpoint, exchanged⟩ := h.intact.exchange x.config.deadline
        [.call (.ofNat x.config.deadline) (.fetch name (found.map FileRecord.version))]
      have unlocked : s.endpoint.Unlocked := by
        rw [endpoint]
        exact h.unlocked
      have noLock : ¬ Reply.empty.Suits (.fetch name (found.map FileRecord.version)) := id
      obtain ⟨s', answers, served, quiet, free⟩ := s.serve_of_unlocked unlocked noLock times
        (.ofNat x.config.deadline) []
      obtain ⟨w, came, same, intact⟩ := exchanged s' answers served
      have called : x.call Peer.shared x.config.deadline
          (.fetch name (found.map FileRecord.version)) []
            = ({ x with world := w }, .ok (answersOf answers)) := by
        rw [call_eq]
        have came' : x.exchanged Peer.shared x.config.deadline
            (.fetch name (found.map FileRecord.version)) [] = (w, .ok (answersOf answers)) := came
        rw [came']
        rfl
      dsimp only
      rw [called]
      refine ⟨rfl, ⟨h.named, intact, ?_⟩, ?_⟩
      · rw [Shared.Unlocked]
        exact same ▸ free
      · intro g failed
        exact Mount.kind_of_receive (not_exhausts_answersOf quiet) failed

/-- **Every call but the one for a lock leaves all locks free, and none fails because of a lock.**
-/
theorem Clear.make (h : x.Clear) {c : ClientCall} (other : ∀ name, c ≠ .requestLock name) :
    x.Returns (x.make Peer.shared c) := by
  cases c with
  | requestLock name => exact absurd rfl (other name)
  | store name => exact h.store name
  | fetch name => exact (h.fetch name).map _
  | delete name => exact h.delete name
  | list =>
      have returns : x.Returns (x.list Peer.shared) := h.askFor id _ _ _ _
      exact returns.map _
  | stat name =>
      have returns : x.Returns (x.stat Peer.shared name) := h.askFor id _ _ _ _
      exact returns.map _
  | checksum name =>
      have returns : x.Returns (x.checksum Peer.shared name) :=
        h.withRecord fun record _ => h.askFor id _ _ _ _
      exact returns.map _
  | compareMtime name =>
      have returns : x.Returns (x.compareMtime Peer.shared name) :=
        h.withRecord fun record _ => h.askFor id _ _ _ _
      exact returns.map _
  | changeNotification =>
      have returns : x.Returns (x.changeNotification Peer.shared) := h.askFor id _ _ _ _
      exact returns.map _

end Site

/-! ### Passes, call by call

A pass makes further calls only by going on to the next entry, so what holds between two calls holds
between two entries.
-/

/-- What a client does as a whole. -/
inductive Deed
  | call (c : ClientCall)
  | reconcile (manifest : List FileRecord)
  | poll
  | apply (changes : List Watch.LocalChange)
  deriving DecidableEq, Repr, Inhabited

namespace Site

section

variable {σ : Type} (p : Peer σ)

def perform (x : Site σ) : Deed → Site σ
  | .call c => (x.make p c).1
  | .reconcile manifest => (x.reconcile p manifest).1
  | .poll => (x.pollOnce p).1
  | .apply changes => (x.applyLocalChanges p changes).1

/-- The call by which a pass brings an entry in step, if it makes one. -/
def entryCall? (x : Site σ) (remote : FileRecord) : Option ClientCall :=
  match x.localRecord remote.name with
  | .error _ => none
  | .ok mine =>
    match plan mine remote with
    | .skip | .anomaly => none
    | .fetch => some (.fetch remote.name)
    | .store => some (.store remote.name)

/-- The call by which a local change is sent. -/
def changeCall (change : Watch.LocalChange) : ClientCall :=
  match change.kind with
  | .changed => .store change.name
  | .removed => .delete change.name

/-- The calls that are made while one goes through a list, each with the client as it makes it. -/
def callsThrough {β : Type} (entry : Site σ → β → Site σ × Booking)
    (call? : Site σ → β → Option ClientCall) : Site σ → List β → List (Site σ × ClientCall)
  | _, [] => []
  | x, a :: rest =>
    (call? x a).toList.map (x, ·) ++ callsThrough entry call? (entry x a).1 rest

/-- The calls that a client makes in doing something. -/
def callsOf (x : Site σ) : Deed → List (Site σ × ClientCall)
  | .call c => [(x, c)]
  | .reconcile manifest => callsThrough (reconcileEntry p) entryCall? x manifest
  | .poll =>
    (x, .changeNotification) ::
      match x.changeNotification p with
      | (_, .error _) => []
      | (y, .ok manifest) => callsThrough (reconcileEntry p) entryCall? y manifest
  | .apply changes =>
    callsThrough (applyChange p) (fun _ change => some (changeCall change)) x changes

theorem ofResult_map {α : Type} (done : Booking) (result : Except Failure α) :
    Booking.ofResult done (result.map fun _ => ()) = .ofResult done result := by
  cases result <;> rfl

/-- An entry is brought in step by its call, and booked by what becomes of this. -/
theorem reconcileEntry_eq (x : Site σ) (r : FileRecord) :
    x.entryCall? r = none ∧ (x.reconcileEntry p r).1 = x ∨
      ∃ c done, x.entryCall? r = some c ∧ (∀ name, c ≠ .requestLock name) ∧
        x.reconcileEntry p r = ((x.make p c).1, .ofResult done (x.make p c).2) := by
  unfold entryCall? reconcileEntry
  cases x.localRecord r.name with
  | error failure => exact Or.inl ⟨rfl, rfl⟩
  | ok mine =>
      dsimp only
      cases plan mine r with
      | skip => exact Or.inl ⟨rfl, rfl⟩
      | anomaly => exact Or.inl ⟨rfl, rfl⟩
      | fetch => exact Or.inr ⟨_, .fetched, rfl, nofun, Prod.ext rfl (ofResult_map _ _).symm⟩
      | store => exact Or.inr ⟨_, .stored, rfl, nofun, rfl⟩

theorem applyChange_eq (x : Site σ) (change : Watch.LocalChange) :
    (∀ name, changeCall change ≠ .requestLock name) ∧
      ∃ done, x.applyChange p change
        = ((x.make p (changeCall change)).1, .ofResult done (x.make p (changeCall change)).2) := by
  obtain ⟨name, kind⟩ := change
  cases kind with
  | changed => exact ⟨nofun, .stored, rfl⟩
  | removed => exact ⟨nofun, .deleted, rfl⟩

/-- What each entry preserves is so before each call and in the end. -/
theorem callsThrough_induction {β : Type} {entry : Site σ → β → Site σ × Booking}
    {call? : Site σ → β → Option ClientCall} (nameOf : β → String) {P : Site σ → Prop}
    {Q : ClientCall → Prop}
    (step : ∀ y a, P y → P (entry y a).1 ∧ ∀ c, call? y a = some c → Q c)
    (list : List β) {x : Site σ} (start : P x) (report : Report) :
    P (through entry nameOf x report list).1 ∧
      ∀ y c, (y, c) ∈ callsThrough entry call? x list → P y ∧ Q c := by
  induction list generalizing x report with
  | nil => exact ⟨start, nofun⟩
  | cons a rest ih =>
      obtain ⟨next, calls⟩ := step x a start
      obtain ⟨last, others⟩ := ih next (report.book (nameOf a) (entry x a).2)
      refine ⟨last, ?_⟩
      intro y c mem
      rcases List.mem_append.1 mem with first | later
      · obtain ⟨c', mem', is⟩ := List.mem_map.1 first
        cases is
        exact ⟨start, calls c (Option.mem_toList.1 mem')⟩
      · exact others y c later

end

variable {x : Site Shared}

theorem Clear.reconcile (h : x.Clear) (manifest : List FileRecord) :
    (x.reconcile Peer.shared manifest).1.Clear ∧
      ∀ y c, (y, c) ∈ callsThrough (reconcileEntry Peer.shared) entryCall? x manifest →
        y.Clear ∧ ∀ name, c ≠ .requestLock name := by
  rw [Site.reconcile, reconcileFrom_eq]
  refine callsThrough_induction _ ?_ manifest h .empty
  intro y r clear
  rcases y.reconcileEntry_eq Peer.shared r with ⟨none, same⟩ | ⟨c, done, some, other, goes⟩
  · rw [same, none]
    refine ⟨clear, ?_⟩
    rintro c ⟨⟩
  · rw [goes, some]
    refine ⟨(clear.make other).clear, ?_⟩
    intro c' is
    cases is
    exact other

theorem Clear.applyLocalChanges (h : x.Clear) (changes : List Watch.LocalChange) :
    (x.applyLocalChanges Peer.shared changes).1.Clear ∧
      ∀ y c, (y, c) ∈ callsThrough (applyChange Peer.shared)
          (fun _ change => some (changeCall change)) x changes →
        y.Clear ∧ ∀ name, c ≠ .requestLock name := by
  rw [Site.applyLocalChanges, applyFrom_eq]
  refine callsThrough_induction _ ?_ changes h .empty
  intro y change clear
  obtain ⟨other, done, goes⟩ := y.applyChange_eq Peer.shared change
  rw [goes]
  refine ⟨(clear.make other).clear, ?_⟩
  intro c is
  cases is
  exact other

/-- Whatever a client does, all locks are free before each of its calls and in the end. -/
theorem Clear.perform (h : x.Clear) {d : Deed} (other : ∀ name, d ≠ .call (.requestLock name)) :
    (x.perform Peer.shared d).Clear ∧
      ∀ y c, (y, c) ∈ x.callsOf Peer.shared d → y.Clear ∧ ∀ name, c ≠ .requestLock name := by
  cases d with
  | call c =>
      have other' : ∀ name, c ≠ .requestLock name :=
        fun name is => other name (congrArg Deed.call is)
      refine ⟨(h.make other').clear, ?_⟩
      intro y c' mem
      cases List.mem_singleton.1 mem
      exact ⟨h, other'⟩
  | reconcile manifest => exact h.reconcile manifest
  | apply changes => exact h.applyLocalChanges changes
  | poll =>
      have asked : x.Returns (x.changeNotification Peer.shared) := h.askFor id _ _ _ _
      show (x.pollOnce Peer.shared).1.Clear ∧ _
      unfold callsOf pollOnce
      rcases answered : x.changeNotification Peer.shared with ⟨y, failure | manifest⟩
      all_goals rw [answered] at asked
      · refine ⟨asked.clear, ?_⟩
        intro z c mem
        cases List.mem_singleton.1 mem
        exact ⟨h, nofun⟩
      · obtain ⟨clear, calls⟩ := asked.clear.reconcile manifest
        refine ⟨clear, ?_⟩
        intro z c mem
        rcases List.mem_cons.1 mem with is | later
        · cases is
          exact ⟨h, nofun⟩
        · exact calls z c later

end Site

/-! ### Any number of clients

Clients take turns with the server, and to each of them the calls of the others are over.
-/

/-- A server and its clients. -/
structure Cluster (κ : Type) where
  client : κ → Client
  world : Shared

namespace Cluster

variable {κ : Type}

/-- One of the clients, with the server. -/
def site (x : Cluster κ) (k : κ) : Site Shared := ⟨x.client k, x.world⟩

/-- Clients of short names all of whose calls get through, at a server on which no lock is held. -/
structure Clear (x : Cluster κ) : Prop where
  named : ∀ k, Frame.TextFits (x.client k).config.client
  intact : x.world.Intact
  unlocked : x.world.Unlocked

theorem Clear.site {x : Cluster κ} (h : x.Clear) (k : κ) : (x.site k).Clear :=
  ⟨h.named k, h.intact, h.unlocked⟩

variable [DecidableEq κ]

/-- Takes over what has become of one of the clients and of the server. -/
def take (x : Cluster κ) (k : κ) (y : Site Shared) : Cluster κ :=
  ⟨Function.update x.client k y.client, y.world⟩

def act (x : Cluster κ) (turn : κ × Deed) : Cluster κ :=
  x.take turn.1 ((x.site turn.1).perform Peer.shared turn.2)

/-- What the clients do, one after another. -/
def run (x : Cluster κ) (turns : List (κ × Deed)) : Cluster κ := turns.foldl act x

variable {x : Cluster κ}

theorem Clear.take (h : x.Clear) (k : κ) {y : Site Shared} (clear : y.Clear) :
    (x.take k y).Clear := by
  refine ⟨?_, clear.intact, clear.unlocked⟩
  intro j
  by_cases same : j = k
  · subst same
    have its : (x.take j y).client j = y.client := Function.update_self ..
    rw [its]
    exact clear.named
  · have its : (x.take k y).client j = x.client j := Function.update_of_ne same ..
    rw [its]
    exact h.named j

theorem Clear.run (h : x.Clear) {turns : List (κ × Deed)}
    (other : ∀ t ∈ turns, ∀ name, t.2 ≠ .call (.requestLock name)) : (x.run turns).Clear := by
  induction turns generalizing x with
  | nil => exact h
  | cons t rest ih =>
      obtain ⟨first, others⟩ := List.forall_mem_cons.1 other
      exact ih (h.take t.1 ((h.site t.1).perform first).1) others

/-- **No lock is left behind: as long as the calls get through, nobody owns any file between two
things that clients do, and none of their calls fails because of a lock.** -/
theorem no_lock_left (x : Cluster κ) (named : ∀ k, Frame.TextFits (x.client k).config.client)
    (intact : ∀ p ∈ x.world.coming, p.Intact)
    (free : ∀ file, x.world.server.endpoint.locks.ownerOf file = none)
    (turns : List (κ × Deed)) (other : ∀ t ∈ turns, ∀ name, t.2 ≠ .call (.requestLock name)) :
    (∀ before after, turns = before ++ after →
      ∀ file, (x.run before).world.server.endpoint.locks.ownerOf file = none) ∧
    ∀ before t after, turns = before ++ t :: after →
      ∀ y c, (y, c) ∈ ((x.run before).site t.1).callsOf Peer.shared t.2 →
        ∀ g, (y.make Peer.shared c).2 = .error g → g.kind ≠ .resourceExhausted := by
  have start : x.Clear := ⟨named, intact, free⟩
  constructor
  · rintro before after rfl
    exact (start.run fun t mem => other t (List.mem_append_left _ mem)).unlocked
  · rintro before t after rfl y c mem
    have clear := start.run fun t mem => other t (List.mem_append_left _ mem)
    obtain ⟨-, calls⟩ := (clear.site t.1).perform
      (other t (List.mem_append_right _ (List.mem_cons_self ..)))
    obtain ⟨clear', other'⟩ := calls y c mem
    exact (clear'.make other').kind

/-- Alice has an older copy of the server's file, and bob has none. -/
def office : Cluster Party where
  client
    | .alice => ⟨.forTesting "" "" "alice", .holding [("letter", [1, 2], 8)]⟩
    | .bob => ⟨.forTesting "" "" "bob", .holding []⟩
  world := .start (.holding [("letter", [5], 9)]) ⟨0, 20⟩

/-- Alice sends her copy, which is refused, and asks for a name that is none to be removed.  Bob
fetches the server's copy and removes it, and alice puts hers there. -/
def errands : List (Party × Deed) :=
  [(.alice, .apply [⟨"letter", .changed⟩, ⟨"../x", .removed⟩]), (.bob, .poll),
    (.bob, .call (.delete "letter")), (.alice, .call (.store "letter"))]

/-- Three locks are granted, and all of them are free again. -/
theorem errands_leave_no_lock :
    (∀ k, Frame.TextFits (office.client k).config.client) ∧
    (∀ p ∈ office.world.coming, p.Intact) ∧
    (∀ file, office.world.server.endpoint.locks.ownerOf file = none) ∧
    (∀ t ∈ errands, ∀ name, t.2 ≠ .call (.requestLock name)) ∧
    (office.run errands).world.server.endpoint.locks.granted = 3 ∧
    (∀ file, (office.run errands).world.server.endpoint.locks.ownerOf file = none) ∧
    ∃ g, ((office.site .alice).make Peer.shared (.store "letter")).2 = .error g ∧
      g.kind ≠ .resourceExhausted := by
  have named : ∀ k, Frame.TextFits (office.client k).config.client := by
    intro k
    cases k <;> decide +kernel
  have intact : ∀ p ∈ office.world.coming, p.Intact := List.forall_mem_nil _
  have free : ∀ file, office.world.server.endpoint.locks.ownerOf file = none := fun _ => rfl
  have other : ∀ t ∈ errands, ∀ name, t.2 ≠ .call (.requestLock name) := by
    intro t mem name
    simp only [errands, List.mem_cons, List.not_mem_nil, or_false] at mem
    rcases mem with rfl | rfl | rfl | rfl <;> exact nofun
  have granted : (office.run errands).world.server.endpoint.locks.granted = 3 := by decide +kernel
  have refused : ((office.site .alice).make Peer.shared (.store "letter")).2
      = .error (.reported .cancelled "cancelled: server copy of letter is newer") := by
    decide +kernel
  obtain ⟨locks, calls⟩ := no_lock_left office named intact free errands other
  have kind := calls [] (.alice, .apply [⟨"letter", .changed⟩, ⟨"../x", .removed⟩]) _ rfl
    (office.site .alice) (.store "letter") (List.mem_cons_self ..) _ refused
  exact ⟨named, intact, free, other, granted, locks errands [] (List.append_nil _).symm,
    _, refused, kind⟩

end Cluster

end MountSync
