/-
Scripts for a change feed with many receivers.

Time stands still while anything can go on.  It moves only when the script waits for a call
that has nothing to do, and then to the end of that call's wait, so that other waits which
are over by then end too.
-/
import MountSync.Feed

namespace MountSync.Scenario

inductive FeedStep
  | publish (events : List ChangeEvent)
  | subscribe (id : String)
  | unsubscribe (id : String)
  | tryReceive (id : String)
  /-- Waits for a change to the end. -/
  | wait (milliseconds : Nat)
  /-- Begins a wait and goes on. -/
  | spawnWait (id : String) (milliseconds : Nat)
  /-- Waits until a wait that was begun is over. -/
  | join (id : String)
  | capacity
  deriving DecidableEq, Repr, Inhabited

inductive FeedAnswer
  | counts (receivers : List Nat)
  | reception (r : Reception)
  | woken (e : Option ChangeEvent)
  | capacity (n : Nat)
  | done
  deriving DecidableEq, Repr, Inhabited

/-- A wait that was begun: still going on, or over with this outcome. -/
abbrev Wait := Except Waiter (Option ChangeEvent)

/-- A feed, the time, and everybody who listens. -/
structure FeedStage where
  feed : ChangeFeed
  now : Nat
  subscribers : Table String Nat
  /-- The newest first.  One that the script itself is in has no name. -/
  waits : List (Option String × Wait)
  deriving Inhabited

namespace FeedStage

def create (capacity : Nat) : FeedStage := ⟨.create capacity, 0, .empty, []⟩

/-- Lets each of the waits go on, the oldest first. -/
def pollAll (now : Nat) (feed : ChangeFeed) :
    List (Option String × Wait) → ChangeFeed × List (Option String × Wait)
  | [] => (feed, [])
  | (id, .ok outcome) :: older =>
    let (feed, older) := pollAll now feed older
    (feed, (id, .ok outcome) :: older)
  | (id, .error waiter) :: older =>
    let (feed, older) := pollAll now feed older
    let (feed, outcome) := waiter.poll feed now
    (feed, (id, outcome) :: older)

/-- Lets everybody who waits go on. -/
def settle (s : FeedStage) : FeedStage :=
  let (feed, waits) := pollAll s.now s.feed s.waits
  { s with feed := feed, waits := waits }

/-- Moves the clock forward, and lets everybody who waits go on. -/
def advanceTo (s : FeedStage) (instant : Nat) : FeedStage :=
  settle { s with now := max s.now instant }

def publishAll (feed : ChangeFeed) : List ChangeEvent → ChangeFeed × List Nat
  | [] => (feed, [])
  | e :: rest =>
    let (feed, count) := feed.publish e.name e.kind
    let (feed, counts) := publishAll feed rest
    (feed, count :: counts)

/-- Begins a wait. -/
def spawn (s : FeedStage) (id : Option String) (milliseconds : Nat) : FeedStage :=
  let (feed, waiter) := Waiter.begin s.feed s.now milliseconds
  settle { s with feed := feed, waits := (id, .error waiter) :: s.waits }

/-- Waits until the latest wait under `id` is over. -/
def join (s : FeedStage) (id : Option String) : FeedStage × Option ChangeEvent :=
  match s.waits.lookup id with
  | none => (s, none)
  | some (.ok outcome) => (s, outcome)
  | some (.error waiter) =>
    let s := s.advanceTo waiter.expiry
    match s.waits.lookup id with
    | some (.ok outcome) => (s, outcome)
    | _ => (s, none)

/-- Plays one step. -/
def play (s : FeedStage) : FeedStep → FeedStage × FeedAnswer
  | .publish events =>
    let (feed, counts) := publishAll s.feed events
    (settle { s with feed := feed }, .counts counts)
  | .subscribe id =>
    let (feed, receiver) := s.feed.subscribe
    let feed := match s.subscribers.get? id with
      | some former => feed.unsubscribe former
      | none => feed
    ({ s with feed := feed, subscribers := s.subscribers.insert id receiver }, .done)
  | .unsubscribe id =>
    match s.subscribers.get? id with
    | some receiver =>
      ({ s with feed := s.feed.unsubscribe receiver, subscribers := s.subscribers.erase id }, .done)
    | none => (s, .done)
  | .tryReceive id =>
    match s.subscribers.get? id with
    | some receiver =>
      let (feed, reception) := s.feed.receive receiver
      ({ s with feed := feed }, .reception reception)
    | none => (s, .reception .nothing)
  | .wait milliseconds =>
    let (s, outcome) := (s.spawn none milliseconds).join none
    (s, .woken outcome)
  | .spawnWait id milliseconds => (s.spawn (some id) milliseconds, .done)
  | .join id =>
    let (s, outcome) := s.join (some id)
    (s, .woken outcome)
  | .capacity => (s, .capacity s.feed.capacity)

end FeedStage

/-- Plays steps one after another and notes, after each, the answer and the counters. -/
def playFeed : FeedStage → List FeedStep → List (FeedAnswer × FeedStats)
  | _, [] => []
  | s, step :: rest =>
    let (s, answer) := s.play step
    (answer, s.feed.stats) :: playFeed s rest

end MountSync.Scenario
