/-
Waking those who wait for a change.

Changes go to everybody who is subscribed.  The feed keeps only the latest ones, as many as
its ring has places; a receiver that falls further behind is told how many it missed and
goes on with the oldest one still kept.  A waiting call is a receiver that leaves with the
first change it gets, or when its time is over.

The feed is kept as the row of all changes and one cursor for each receiver; what the ring
still holds is the end of that row.
-/
import MountSync.Table
import MountSync.Time

namespace MountSync

inductive ChangeKind
  | stored
  | deleted
  deriving DecidableEq, Repr, Inhabited

/-- What happened to a file. -/
structure ChangeEvent where
  name : String
  kind : ChangeKind
  deriving DecidableEq, Repr, Inhabited

/-- How often the feed was used, and how many receivers there are.  The counters have no bound;
counters in words of 64 bits show them modulo 2^64. -/
structure FeedStats where
  published : Nat
  wakeups : Nat
  timeouts : Nat
  waiting : Nat
  deriving DecidableEq, Repr, Inhabited

/-- The change feed of a mount.  It numbers the changes without a bound, and so tells any two of them
apart; with words of 64 bits this would end after 2^64 changes. -/
structure ChangeFeed where
  capacity : Nat
  /-- Every change so far, the first one first. -/
  events : Array ChangeEvent
  /-- For each live receiver the number of changes it is past. -/
  receivers : Table Nat Nat
  nextReceiver : Nat
  wakeups : Nat
  timeouts : Nat
  deriving Inhabited

/-- What a receiver finds. -/
inductive Reception
  | event (e : ChangeEvent)
  /-- So many changes were lost. -/
  | lagged (missed : Nat)
  | nothing
  deriving DecidableEq, Repr, Inhabited

namespace ChangeFeed

def create (capacity : Nat) : ChangeFeed := ⟨capacity, #[], .empty, 0, 0, 0⟩

/-- The places of the ring: the capacity rounded up to a power of two, and never none. -/
def ringSize (f : ChangeFeed) : Nat := (max f.capacity 1).nextPowerOfTwo

def published (f : ChangeFeed) : Nat := f.events.size

def stats (f : ChangeFeed) : FeedStats :=
  ⟨f.published, f.wakeups, f.timeouts, f.receivers.size⟩

/-- Announces a change and tells how many receivers there are for it. -/
def publish (f : ChangeFeed) (name : String) (kind : ChangeKind) : ChangeFeed × Nat :=
  ({ f with events := f.events.push ⟨name, kind⟩ }, f.receivers.size)

/-- Adds a receiver for all changes from now on. -/
def subscribe (f : ChangeFeed) : ChangeFeed × Nat :=
  ({ f with
      receivers := f.receivers.insert f.nextReceiver f.published
      nextReceiver := f.nextReceiver + 1 }, f.nextReceiver)

def unsubscribe (f : ChangeFeed) (receiver : Nat) : ChangeFeed :=
  { f with receivers := f.receivers.erase receiver }

/-- Moves the cursor of a receiver. -/
def advance (f : ChangeFeed) (receiver cursor : Nat) : ChangeFeed :=
  { f with receivers := f.receivers.insert receiver cursor }

/-- Takes the next change for a receiver, or the notice that it is too far behind. -/
def receive (f : ChangeFeed) (receiver : Nat) : ChangeFeed × Reception :=
  match f.receivers.get? receiver with
  | none => (f, .nothing)
  | some cursor =>
    if f.published - f.ringSize > cursor then
      (f.advance receiver (f.published - f.ringSize),
        .lagged (f.published - f.ringSize - cursor))
    else match f.events[cursor]? with
      | some e => (f.advance receiver (cursor + 1), .event e)
      | none => (f, .nothing)

/-- Counts a wait that ended with a change. -/
def countWakeup (f : ChangeFeed) : ChangeFeed :=
  { f with wakeups := f.wakeups + 1 }

/-- Counts a wait that ended without one. -/
def countTimeout (f : ChangeFeed) : ChangeFeed :=
  { f with timeouts := f.timeouts + 1 }

end ChangeFeed

/-- A call that waits for a change. -/
structure Waiter where
  receiver : Nat
  maxWait : Nat
  expiry : Nat
  deriving DecidableEq, Repr, Inhabited

namespace Waiter

/-- Begins a wait of at most `maxWait`. -/
def begin (f : ChangeFeed) (now : Nat) (maxWait : Nat) : ChangeFeed × Waiter :=
  let (f, receiver) := f.subscribe
  (f, ⟨receiver, maxWait, now + maxWait⟩)

/-- Ends a wait with a change. -/
def wake (f : ChangeFeed) (w : Waiter) (e : ChangeEvent) :
    ChangeFeed × Except Waiter (Option ChangeEvent) :=
  ((f.unsubscribe w.receiver).countWakeup, .ok (some e))

/-- Ends a wait whose time is over. -/
def giveUp (f : ChangeFeed) (w : Waiter) : ChangeFeed × Except Waiter (Option ChangeEvent) :=
  ((f.unsubscribe w.receiver).countTimeout, .ok none)

/-- Looks after a waiting call: it ends with a change if there is one, or if its time is
over; otherwise it goes on waiting.  Having fallen behind does not end a wait, and starts
its time anew; the oldest change still kept is then there to be taken. -/
def poll (f : ChangeFeed) (now : Nat) (w : Waiter) :
    ChangeFeed × Except Waiter (Option ChangeEvent) :=
  match f.receive w.receiver with
  | (f, .event e) => wake f w e
  | (f, .nothing) => if w.expiry ≤ now then giveUp f w else (f, .error w)
  | (f, .lagged _) =>
    match f.receive w.receiver with
    | (f, .event e) => wake f w e
    | (f, _) => (f, .error ⟨w.receiver, w.maxWait, now + w.maxWait⟩)

end Waiter

end MountSync
