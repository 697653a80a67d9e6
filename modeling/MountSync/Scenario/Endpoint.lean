/-
Scripts for one endpoint.

Calls run one after another.  Within a call the script can act at the points where the call
waits for somebody else: between two parts of a store stream, before a fetch message is
taken, and while a call waits for a change.  What is done in such a wait can be a call that
waits itself, so there can be many that wait at the same time, each begun while the former
ones waited.

Time passes only when a call has nothing to do but to wait, and then to the end of that wait;
a reader that does something in between lets one millisecond pass before it.  Whoever waits is
looked after as soon as a step is over or time has passed.
-/
import MountSync.Endpoint.Delete
import MountSync.Endpoint.Fetch
import MountSync.Endpoint.Query
import MountSync.Endpoint.Store
import MountSync.Scenario.Lock
import MountSync.Scenario.Mount

namespace MountSync.Scenario

/-- Something that is done behind the back of the calls. -/
inductive DirectStep
  | file (step : FileStep)
  | lock (step : LockStep)
  deriving DecidableEq, Repr, Inhabited

inductive DirectAnswer
  | file (a : FileAnswer)
  | lock (a : LockAnswer)
  deriving DecidableEq, Repr, Inhabited

/-- One part of a store stream. -/
inductive StreamPart
  | arrival (a : Arrival)
  /-- Something that is done when the stream gets here. -/
  | meanwhile (step : DirectStep)
  deriving DecidableEq, Repr, Inhabited

/-- Who takes the messages of a fetch. -/
inductive Reader
  /-- Takes all of them. -/
  | eager
  /-- Takes a number of messages and then leaves. -/
  | leavesAfter (messages : Nat)
  /-- Takes as many messages as wait in a queue of the given size, and no more. -/
  | stalls (capacity : Nat)
  /-- Does something a moment after the first message is there, and then takes all of them. -/
  | meanwhile (step : FileStep)
  deriving DecidableEq, Repr, Inhabited

/-- What becomes of a message when `sent` were handed over before. -/
def Reader.handover (r : Reader) (sent : Nat) : Handover :=
  match r with
  | .eager | .meanwhile _ => .delivered
  | .leavesAfter messages => if sent < messages then .delivered else .readerGone
  | .stalls capacity => if sent < capacity then .delivered else .late

/-- A step of a script.  Calls say how many milliseconds they may take. -/
inductive CallStep
  | direct (step : DirectStep)
  | requestLock (name : String) (client : ClientId) (timeout : Nat)
  | delete (name : String) (client : ClientId) (timeout : Nat)
  | abandon (name : String) (client : ClientId)
  | store (header : StoreHeader) (timeout : Nat) (stream : List StreamPart)
  | fetch (name : String) (mine : Option FileVersion) (timeout : Nat) (reader : Reader)
  | list (timeout : Nat)
  | stat (name : String) (timeout : Nat)
  | probe (name : String) (client : ClientId) (checksum : UInt32) (timeout : Nat)
  | compareMtime (name : String) (mtime : UnixTime) (timeout : Nat)
  /-- Asks for the manifest, and plays steps once the call waits for a change. -/
  | manifest (maxWait timeout : Nat) (meanwhile : List CallStep)
  deriving Repr, Inhabited

inductive CallAnswer
  | direct (a : DirectAnswer)
  | unit (r : Except Failure Unit)
  | nothing
  | stored (r : Except Failure String)
  | fetched (r : Except Failure Nat) (messages : List FetchChunk)
  | listed (r : Except Failure (List ListEntry))
  | stated (r : Except Failure FileRecord)
  | probed (r : Except Failure UInt32)
  | compared (r : Except Failure Bool)
  | manifest (r : Except Failure (List FileRecord)) (meanwhile : List CallAnswer)

/-- An endpoint, the time, and the calls that wait for a change. -/
structure EndpointStage where
  endpoint : Endpoint
  /-- The time of day. -/
  today : UnixTime
  now : Nat
  /-- The one that began last comes first. -/
  waiting : List ManifestCall
  deriving Inhabited

namespace EndpointStage

def moment (s : EndpointStage) : Moment := ⟨s.now, s.today⟩

def schedule (s : EndpointStage) : Schedule := .atOnce s.moment

def deadline (s : EndpointStage) (timeout : Nat) : Deadline := .after s.now timeout

/-- Lets time pass until a deadline. -/
def waitFor (s : EndpointStage) (d : Deadline) : EndpointStage := { s with now := max s.now d.expiry }

def withEndpoint (s : EndpointStage) (e : Endpoint) : EndpointStage := { s with endpoint := e }

def playFile (s : EndpointStage) (step : FileStep) : EndpointStage × FileAnswer :=
  let (mount, answer) := step.play s.endpoint.mount s.today
  (s.withEndpoint (s.endpoint.withMount mount), answer)

def playDirect (s : EndpointStage) : DirectStep → EndpointStage × DirectAnswer
  | .file step =>
    let (s, answer) := s.playFile step
    (s, .file answer)
  | .lock step =>
    let (locks, answer) := step.play s.endpoint.locks
    (s.withEndpoint (s.endpoint.withLocks locks), .lock answer)

/-- Takes what the stream has next.  Nothing being there lets the deadline pass. -/
def offer (s : EndpointStage) (c : StoreCall) (a : Arrival) : EndpointStage × StoreCall :=
  let s := if a = .late then s.waitFor c.deadline else s
  let (e, c) := c.takeAndSettle s.endpoint s.moment a
  (s.withEndpoint e, c)

/-- Plays the parts of a stream as far as the store wants them. -/
def stream (s : EndpointStage) (c : StoreCall) : List StreamPart → EndpointStage × StoreCall
  | [] => s.offer c .ended
  | part :: rest =>
    if c.isReceiving then
      match part with
      | .meanwhile step => stream (s.playDirect step).1 c rest
      | .arrival a =>
        let (s, c) := s.offer c a
        stream s c rest
    else (s, c)

def playStore (s : EndpointStage) (header : StoreHeader) (timeout : Nat)
    (parts : List StreamPart) : EndpointStage × Except Failure String :=
  let (e, c) := (StoreCall.begin header (s.deadline timeout)).enter s.endpoint s.schedule
  let (s, c) := (s.withEndpoint e).stream c parts
  (s, c.result?.getD (.error .deadlineExceeded))

/-- What is done once the first message is there, or the fetch is over. -/
def beforeReading (s : EndpointStage) : Reader → EndpointStage
  | .meanwhile step => (playFile { s with now := s.now + 1 } step).1
  | _ => s

def playFetch (s : EndpointStage) (name : String) (mine : Option FileVersion) (timeout : Nat)
    (reader : Reader) : EndpointStage × Except Failure Nat × List FetchChunk :=
  let call := FetchCall.begin name mine (s.deadline timeout)
  let (e, c) := call.enter s.endpoint s.schedule readLimit
  let s := (s.withEndpoint e).beforeReading reader
  let (e, c, messages) := c.finish s.endpoint s.moment (fun _ => readLimit) reader.handover
  let s := s.withEndpoint e
  match c.result? with
  | some (.error .deadlineExceeded) => (s.waitFor c.deadline, .error .deadlineExceeded, messages)
  | some result => (s, result, messages)
  | none => (s, .error .deadlineExceeded, messages)

/-! ### Calls that wait for a change -/

/-- Begins a call for the manifest. -/
def ask (s : EndpointStage) (maxWait timeout : Nat) : EndpointStage :=
  let (e, c) := ManifestCall.begin s.endpoint s.now maxWait (s.deadline timeout)
  { s with endpoint := e, waiting := c :: s.waiting }

/-- Looks after calls, the one that began first before the others. -/
def pollAll (e : Endpoint) (now : Nat) : List ManifestCall → Endpoint × List ManifestCall
  | [] => (e, [])
  | c :: older =>
    let (e, older) := pollAll e now older
    let (e, c) := c.poll e now
    (e, c :: older)

/-- Looks after everybody who waits. -/
def settle (s : EndpointStage) : EndpointStage :=
  let (e, waiting) := pollAll s.endpoint s.now s.waiting
  { s with endpoint := e, waiting := waiting }

/-- Waits for the end of the call that began last. -/
def await (s : EndpointStage) : EndpointStage × Except Failure (List FileRecord) :=
  match s.waiting with
  | [] => (s, .error .deadlineExceeded)
  | c :: _ =>
    let s := settle { s with now := c.nextInstant s.now }
    ({ s with waiting := s.waiting.tail },
      (s.waiting.head?.bind ManifestCall.result?).getD (.error .deadlineExceeded))

/-! ### Steps -/

mutual

/-- Plays one step. -/
def play (s : EndpointStage) : CallStep → EndpointStage × CallAnswer
  | .direct step => (s.playDirect step).map id .direct
  | .requestLock name client timeout =>
    let (e, r) := s.endpoint.requestLock name client (s.deadline timeout) s.now
    (s.withEndpoint e, .unit r)
  | .delete name client timeout =>
    let (e, r) := s.endpoint.delete name client (s.deadline timeout) s.schedule
    (s.withEndpoint e, .unit r)
  | .abandon name client => (s.withEndpoint (s.endpoint.abandonExpired name client), .nothing)
  | .store header timeout parts => (s.playStore header timeout parts).map id .stored
  | .fetch name mine timeout reader =>
    let (s, r, messages) := s.playFetch name mine timeout reader
    (s, .fetched r messages)
  | .list timeout => (s, .listed (s.endpoint.list (s.deadline timeout) s.now))
  | .stat name timeout => (s, .stated (s.endpoint.stat name (s.deadline timeout) s.now))
  | .probe name client checksum timeout =>
    let (e, r) := s.endpoint.probe name client checksum (s.deadline timeout) s.moment
    (s.withEndpoint e, .probed r)
  | .compareMtime name mtime timeout =>
    (s, .compared (s.endpoint.compareMtime name mtime (s.deadline timeout) s.now))
  | .manifest maxWait timeout meanwhile =>
    let (s, answers) := playSteps (s.ask maxWait timeout) meanwhile
    let (s, result) := s.await
    (s, .manifest result answers)

/-- Plays steps one after another, and looks after everybody who waits after each. -/
def playSteps (s : EndpointStage) : List CallStep → EndpointStage × List CallAnswer
  | [] => (s, [])
  | step :: rest =>
    let (s, answer) := play s step
    let (s, answers) := playSteps s.settle rest
    (s, answer :: answers)

end

/-- Sets the clock of the files to that of the script. -/
def restampAll (s : EndpointStage) (step : Nat) : EndpointStage :=
  s.withEndpoint (s.endpoint.withMount (restampMount s.endpoint.mount s.today step))

/-- Plays steps from step number `number` on and notes, after each, the answer and the lock
rows of `names`. -/
def playAll (names : List String) : (number : Nat) → EndpointStage → List CallStep →
    EndpointStage × List (CallAnswer × List LockRow)
  | _, s, [] => (s, [])
  | number, s, step :: rest =>
    let (s, answer) := s.play step
    let rows := lockRows s.endpoint.locks names
    let (s, notes) := playAll names (number + 1) (s.restampAll number) rest
    (s, (answer, rows) :: notes)

end EndpointStage

/-- Plays a script on an endpoint. -/
def playEndpoint (today : UnixTime) (e : Endpoint) (names : List String) (steps : List CallStep) :
    Endpoint × List (CallAnswer × List LockRow) :=
  let (s, notes) := EndpointStage.playAll names 0 ⟨e, today, 0, []⟩ steps
  (s.endpoint, notes)

end MountSync.Scenario
