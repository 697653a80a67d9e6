/-
A server that a client shares with others.

Between any two calls of the client the server serves whatever connections others make, with
whatever they send.  A call of the client can find no worker free, take its time, break off in
either direction or never get through, and the clock goes on meanwhile; it never goes back.  All of
this is written down in advance, passage by passage, so what is shown for every list of passages is
shown for every way in which the calls can follow one another.

An answer can be long on its way, and what others do meanwhile is done to the server before the
client goes on.  So there are two times: that of the server's last connection, from which on others
can come, and that at which the client has gone on, from which on it makes its next call.

What the client's connections did to the server's mount is kept.
-/
import MountSync.Client.Basic
import MountSync.Proofs.Client.Passing

namespace MountSync

/-! ### The clock

Moments are written down in advance, and a call cannot be served before its turn.  So a moment that
has been written down too early is put off.
-/

/-- The later one of two moments. -/
def Moment.later (a b : Moment) : Moment where
  instant := max a.instant b.instant
  calendar := if a.calendar < b.calendar then b.calendar else a.calendar

theorem Moment.calendar_le_later (a b : Moment) : a.calendar ≤ (a.later b).calendar := by
  show a.calendar ≤ if a.calendar < b.calendar then b.calendar else a.calendar
  split
  · rename_i less
    exact Int64.le_of_lt less
  · exact Int64.le_refl _

/-- The moments of a call that begins no earlier than `now`. -/
def Schedule.notBefore (s : Schedule) (now : Moment) : Schedule where
  arrival := now.later s.arrival
  decision := (now.later s.arrival).later s.decision
  transfer := ((now.later s.arrival).later s.decision).later s.transfer

theorem Schedule.calendar_le_transfer (s : Schedule) (now : Moment) :
    now.calendar ≤ (s.notBefore now).transfer.calendar :=
  Int64.le_trans (now.calendar_le_later _)
    (Int64.le_trans (Moment.calendar_le_later _ _) (Moment.calendar_le_later _ _))

/-! ### Passages -/

/-- A connection that somebody else makes. -/
structure Connection where
  times : Schedule
  /-- How many workers are at work on other calls. -/
  busy : Nat
  messages : List Message
  deriving DecidableEq, Repr, Inhabited

/-- How a call of the client gets to the server and back. -/
structure Passage where
  /-- The connections that the server serves before. -/
  before : List Connection
  times : Schedule
  /-- How many workers are at work on other calls. -/
  busy : Nat
  /-- Why there is no connection, if there is none. -/
  refused : Option LinkFault
  outgoing : Passing
  incoming : Passing
  /-- When the client goes on. -/
  resumed : Moment
  deriving DecidableEq, Repr, Inhabited

/-- A call that takes no time and that nothing gets in the way of. -/
def Passage.quiet (now : Moment) : Passage := ⟨[], .atOnce now, 0, none, .whole, .whole, now⟩

/-- A connection of the client: what it was made for, and the server's mount before and after. -/
structure Service where
  frames : List ClientFrame
  before : Mount
  after : Mount
  /-- When the server was done with it. -/
  done : UnixTime
  /-- When the client went on. -/
  resumed : UnixTime
  deriving DecidableEq, Repr, Inhabited

/-- A server, the time, and what is to come. -/
structure Shared where
  server : Server
  /-- When the server was done with its last connection. -/
  now : Moment
  /-- When the client went on after its last call. -/
  resumed : Moment
  coming : List Passage
  /-- The connections of the client so far. -/
  log : List Service
  deriving Inhabited

namespace Shared

/-- A server that has just been started. -/
def start (m : Mount) (now : Moment) : Shared where
  server := .create (.forTesting "") m
  now := now
  resumed := now
  coming := []
  log := []

/-- The mount of the server. -/
def mount (w : Shared) : Mount := w.server.endpoint.mount

/-- Serves a connection on which the given messages arrive, no earlier than at the given moment. -/
def connect (w : Shared) (now : Moment) (times : Schedule) (busy : Nat) (messages : List Message) :
    Shared × List ServerFrame :=
  let (server, answers) := ({ w.server with busy }).serve (times.notBefore now) messages
  ({ w with server, now := (times.notBefore now).transfer }, answers)

def visit (w : Shared) (c : Connection) : Shared := (w.connect w.now c.times c.busy c.messages).1

/-- When the client can make its next call. -/
def ready (w : Shared) : Moment := w.now.later w.resumed

/-- The way of the next call.  Once all that was written down has passed, nothing gets in the way
any more. -/
def next (w : Shared) : Passage := w.coming.headD (.quiet w.ready)

/-- The server as the next call finds it. -/
def met (w : Shared) : Shared := w.next.before.foldl visit w

/-- Makes a call.  How long the client waits is part of its way. -/
def exchange (w : Shared) (_timeout : Nat) (frames : List ClientFrame) :
    Shared × Except LinkFault (List Message) :=
  let p := w.next
  let w := { w.met with coming := w.coming.tail }
  match p.refused with
  | some fault => (w, .error fault)
  | none =>
    let (after, answers) :=
      w.connect w.ready p.times p.busy (p.outgoing.cut (frames.map .ofClientFrame))
    let resumed := after.now.later p.resumed
    ({ after with
        resumed
        log := w.log ++ [⟨frames, w.mount, after.mount, after.now.calendar, resumed.calendar⟩] },
      .ok (p.incoming.cut (answersOf answers)))

end Shared

/-- A server that a client shares with others. -/
def Peer.shared : Peer Shared where
  today w := w.resumed.calendar
  exchange := Shared.exchange

namespace Shared

/-! ### What the server's mount goes through

Only the order of the calls and their times are kept here, not whose they were.
-/

/-- From one mount and time to another one: call after call, each no earlier than the one before. -/
inductive Becomes (m₀ : Mount) (t₀ : UnixTime) : Mount → UnixTime → Prop
  | refl : Becomes m₀ t₀ m₀ t₀
  | turn {m m' : Mount} {t t' : UnixTime} : Becomes m₀ t₀ m t → t ≤ t' → m.Turns t' m' →
      Becomes m₀ t₀ m' t'

variable {w w' : Shared} {m m' m'' : Mount} {t t' t'' : UnixTime}

theorem Becomes.trans (h : Becomes m t m' t') (h' : Becomes m' t' m'' t'') :
    Becomes m t m'' t'' := by
  induction h' with
  | refl => exact h
  | turn _ later turns ih => exact ih.turn later turns

/-- Whatever arrives on a connection, the server's mount turns at most once. -/
theorem becomes_connect (w : Shared) {now : Moment} (later : t ≤ now.calendar) (times : Schedule)
    (busy : Nat) (messages : List Message) :
    Becomes w.mount t (w.connect now times busy messages).1.mount
      (w.connect now times busy messages).1.now.calendar := by
  have turns := Server.turns_serve { w.server with busy } (times.notBefore now) messages
  exact Becomes.refl.turn (Int64.le_trans later (times.calendar_le_transfer now)) turns

theorem becomes_visits (visits : List Connection) (w : Shared) :
    Becomes w.mount w.now.calendar (visits.foldl visit w).mount
      (visits.foldl visit w).now.calendar := by
  induction visits generalizing w with
  | nil => exact .refl
  | cons c rest ih =>
      exact (w.becomes_connect (Int64.le_refl _) c.times c.busy c.messages).trans (ih (w.visit c))

/-- Others may change the server's mount before a call. -/
theorem becomes_met (w : Shared) :
    Becomes w.mount w.now.calendar w.met.mount w.met.now.calendar :=
  becomes_visits w.next.before w

/-- The visits of others are none of the client's connections. -/
theorem log_met (w : Shared) : w.met.log = w.log := by
  have visits : ∀ (visits : List Connection) (w : Shared),
      (visits.foldl visit w).log = w.log := by
    intro visits
    induction visits with
    | nil =>
        intro w
        rfl
    | cons c rest ih =>
        intro w
        exact ih (w.visit c)
  exact visits w.next.before w

/-- Nobody else comes before a call. -/
theorem met_of_alone (alone : w.next.before = []) : w.met = w := by
  rw [met, alone]
  rfl

/-! ### A call of the client

A call either gets no connection, and then nothing has happened, or it is served after all visits
that were to come before it.
-/

/-- A call got no connection. -/
structure Lost (w w' : Shared) : Prop where
  coming : w'.coming = w.coming.tail
  mount : w'.mount = w.met.mount
  now : w'.now = w.met.now
  log : w'.log = w.log

/-- A call was served. -/
structure Served (w : Shared) (frames : List ClientFrame) (w' : Shared) : Prop where
  coming : w'.coming = w.coming.tail
  becomes : Becomes w.met.mount w.met.now.calendar w'.mount w'.now.calendar
  later : w'.now.calendar ≤ w'.resumed.calendar
  log : w'.log
    = w.log ++ [⟨frames, w.met.mount, w'.mount, w'.now.calendar, w'.resumed.calendar⟩]

/-- A call that was served is the last one in the log. -/
theorem Served.logged {frames : List ClientFrame} (h : w.Served frames w') :
    ∃ s ∈ w'.log, s = ⟨frames, w.met.mount, w'.mount, w'.now.calendar, w'.resumed.calendar⟩ := by
  rw [h.log]
  exact ⟨_, List.mem_append_right _ (List.mem_singleton_self _), rfl⟩

/-- The world before and after a call of the client. -/
def Goes (w : Shared) (frames : List ClientFrame) (w' : Shared) : Prop :=
  w.Lost w' ∨ w.Served frames w'

theorem Goes.coming {frames : List ClientFrame} (h : w.Goes frames w') :
    w'.coming = w.coming.tail := by
  rcases h with lost | served
  · exact lost.coming
  · exact served.coming

theorem Goes.becomes {frames : List ClientFrame} (h : w.Goes frames w') :
    Becomes w.met.mount w.met.now.calendar w'.mount w'.now.calendar := by
  rcases h with lost | served
  · rw [lost.mount, lost.now]
    exact .refl
  · exact served.becomes

/-- A call gets no connection, or the server serves what comes through of it, and what comes back
is what comes through of its answer. -/
theorem exchange_cases (w : Shared) (timeout : Nat) (frames : List ClientFrame) :
    (w.Lost (w.exchange timeout frames).1 ∧
        ∃ fault, (w.exchange timeout frames).2 = .error fault) ∨
      w.Served frames (w.exchange timeout frames).1 ∧
        ∃ (s s' : Server) (times : Schedule) (answers : List ServerFrame),
          s.endpoint = w.met.server.endpoint ∧
          s.serve times (w.next.outgoing.cut (frames.map .ofClientFrame)) = (s', answers) ∧
          (w.exchange timeout frames).1.mount = s'.endpoint.mount ∧
          (w.exchange timeout frames).2 = .ok (w.next.incoming.cut (answersOf answers)) := by
  cases refused : w.next.refused with
  | some fault =>
      have exchanged : w.exchange timeout frames
          = ({ w.met with coming := w.coming.tail }, .error fault) := by
        rw [exchange]
        dsimp only
        rw [refused]
      rw [exchanged]
      exact Or.inl ⟨⟨rfl, rfl, rfl, w.log_met⟩, fault, rfl⟩
  | none =>
      let m : Shared := { w.met with coming := w.coming.tail }
      let r := m.connect m.ready w.next.times w.next.busy
        (w.next.outgoing.cut (frames.map .ofClientFrame))
      let resumed := r.1.now.later w.next.resumed
      have exchanged : w.exchange timeout frames
          = ({ r.1 with
                resumed
                log := m.log ++ [⟨frames, m.mount, r.1.mount, r.1.now.calendar,
                  resumed.calendar⟩] },
              .ok (w.next.incoming.cut (answersOf r.2))) := by
        rw [exchange]
        dsimp only
        rw [refused]
      have log : m.log = w.log := w.log_met
      rw [exchanged, log]
      refine Or.inr ⟨⟨rfl, ?_, Moment.calendar_le_later _ _, rfl⟩, { m.server with
        busy := w.next.busy }, _, w.next.times.notBefore m.ready, r.2, rfl, rfl, rfl, rfl⟩
      exact m.becomes_connect (Moment.calendar_le_later _ _) w.next.times w.next.busy _

theorem goes_exchange (w : Shared) (timeout : Nat) (frames : List ClientFrame) :
    w.Goes frames (w.exchange timeout frames).1 := by
  rcases w.exchange_cases timeout frames with ⟨lost, -⟩ | ⟨served, -⟩
  · exact Or.inl lost
  · exact Or.inr served

/-- A call of which the server sees nothing, and of which nothing comes back. -/
structure Unheard (w : Shared) (r : Shared × Except LinkFault (List Message)) : Prop where
  mount : r.1.mount = w.met.mount
  unanswered : ∀ messages, r.2 = .ok messages →
    (∀ reply, Message.replyIn messages ≠ .ok reply) ∧ Message.fetched? messages = none

/-- A call that a server has carried out, with what came through of the frames behind it. -/
structure Heard (w : Shared) (call : ClientFrame) (more : List ClientFrame)
    (r : Shared × Except LinkFault (List Message)) : Prop where
  served : w.Served (call :: more) r.1
  carriedOut : ∃ (s s' : Server) (times : Schedule) (p : Passing) (answers : List ServerFrame),
    s.endpoint = w.met.server.endpoint ∧
    s.serve times (.ofClientFrame call :: p.cut (more.map .ofClientFrame)) = (s', answers) ∧
    r.1.mount = s'.endpoint.mount ∧ r.2 = .ok (w.next.incoming.cut (answersOf answers))

/-- Nothing is answered to what is no call. -/
theorem unanswered_cut_nil (p : Passing) :
    (∀ reply, Message.replyIn (p.cut (answersOf [])) ≠ .ok reply) ∧
      Message.fetched? (p.cut (answersOf [])) = none := by
  rcases p.cut_cons .close [] with ⟨e, ended⟩ | ⟨p', passed⟩
  · rw [show answersOf [] = [.close] from rfl, ended]
    cases e <;> exact ⟨nofun, rfl⟩
  · rw [show answersOf [] = [.close] from rfl, passed]
    exact ⟨nofun, rfl⟩

/-- **Either nothing comes of a call, or it is carried out with some of what is behind it.** -/
theorem exchange_call (w : Shared) (timeout : Nat) (call : ClientFrame) (more : List ClientFrame) :
    w.Unheard (w.exchange timeout (call :: more)) ∨
      w.Heard call more (w.exchange timeout (call :: more)) := by
  rcases w.exchange_cases timeout (call :: more) with ⟨lost, fault, failed⟩ |
    ⟨served, s, s', times, answers, endpoint, carried, mount, came⟩
  · refine Or.inl ⟨lost.mount, ?_⟩
    intro messages came
    exact nomatch failed.symm.trans came
  rcases w.next.outgoing.cut_cons (.ofClientFrame call) (more.map .ofClientFrame) with
    ⟨e, ended⟩ | ⟨p, passed⟩
  · have silent : s.serve times e.messages = (s', answers) := ended ▸ carried
    have nothing : answers = [] ∧ s'.endpoint.mount = s.endpoint.mount := by
      cases e <;> (cases silent; exact ⟨rfl, rfl⟩)
    obtain ⟨rfl, same⟩ := nothing
    refine Or.inl ⟨mount.trans (same.trans (congrArg Endpoint.mount endpoint)), ?_⟩
    intro messages came'
    cases came.symm.trans came'
    exact unanswered_cut_nil _
  · have carried' : s.serve times (.ofClientFrame call :: p.cut (more.map .ofClientFrame))
        = (s', answers) := passed ▸ carried
    exact Or.inr ⟨served, s, s', times, p, answers, endpoint, carried', mount, came⟩

end Shared

end MountSync
