/-
Calls that overlap.

Any number of calls can be under way on one endpoint.  Each of them goes on step by step, in
any order, and the steps of the others fall in between.  What a call may rely on is therefore
only what no step of another call can change.
-/
import MountSync.Endpoint.Delete
import MountSync.Endpoint.Fetch
import MountSync.Endpoint.Query
import MountSync.Endpoint.Store

namespace MountSync

/-- A call that is under way. -/
inductive Running
  | store (c : StoreCall)
  | fetch (c : FetchCall)
  | delete (c : DeleteCall)
  | probe (c : ProbeCall)
  | expiry (c : ExpiryCall)

/-- An endpoint with the calls on it, in the order in which they came. -/
structure Traffic where
  endpoint : Endpoint
  calls : List Running

/-- What can happen next. -/
inductive Move
  /-- A client asks for a lock. -/
  | requestLock (name : String) (client : ClientId) (deadline : Deadline)
  | beginStore (header : StoreHeader) (deadline : Deadline)
  | beginFetch (name : String) (mine : Option FileVersion) (deadline : Deadline)
  | beginDelete (name : String) (client : ClientId) (deadline : Deadline)
  | beginProbe (name : String) (client : ClientId) (checksum : UInt32) (deadline : Deadline)
  /-- A call expires before its turn comes. -/
  | beginExpiry (name : String) (client : ClientId)
  /-- A call takes a step.  A read gives at most `limit` bytes. -/
  | step (number limit : Nat)
  /-- The stream of a store brings something. -/
  | stream (number : Nat) (a : Arrival)
  /-- The reader of a fetch takes a message, or does not. -/
  | handOver (number : Nat) (outcome : Handover)
  deriving DecidableEq, Repr, Inhabited

namespace Running

def store? : Running → Option StoreCall
  | store c => some c
  | _ => none

def fetch? : Running → Option FetchCall
  | fetch c => some c
  | _ => none

/-- Takes one step. -/
def step (e : Endpoint) (now : Moment) (limit : Nat) : Running → Endpoint × Running
  | store c => (c.step e now).map id store
  | fetch c => (c.step e now limit).map id fetch
  | delete c => (c.step e now).map id delete
  | probe c => (c.step e now).map id probe
  | expiry c => (c.step e).map id expiry

end Running

namespace Traffic

/-- An endpoint on which nothing happens. -/
def idle (e : Endpoint) : Traffic := ⟨e, []⟩

/-- Adds a call. -/
def begin (t : Traffic) (c : Running) : Traffic := { t with calls := t.calls ++ [c] }

/-- Lets one call go on. -/
def advance (t : Traffic) (number : Nat) (r : Endpoint × Running) : Traffic :=
  ⟨r.1, t.calls.set number r.2⟩

/-- What a move makes of the traffic; nothing, if it cannot happen. -/
def next (t : Traffic) (now : Moment) : Move → Option Traffic
  | .requestLock name client deadline =>
    some { t with endpoint := (t.endpoint.requestLock name client deadline now.instant).1 }
  | .beginStore header deadline => some (t.begin (.store (.begin header deadline)))
  | .beginFetch name mine deadline => some (t.begin (.fetch (.begin name mine deadline)))
  | .beginDelete name client deadline => some (t.begin (.delete (.begin name client deadline)))
  | .beginProbe name client checksum deadline =>
    some (t.begin (.probe (.begin name client checksum deadline)))
  | .beginExpiry name client => some (t.begin (.expiry (.begin name client)))
  | .step number limit =>
    t.calls[number]?.map fun c => t.advance number (c.step t.endpoint now limit)
  | .stream number a =>
    (t.calls[number]?.bind Running.store?).map fun c =>
      t.advance number ((c.take t.endpoint now a).map id .store)
  | .handOver number outcome =>
    (t.calls[number]?.bind Running.fetch?).map fun c =>
      t.advance number ((c.handOver t.endpoint outcome).map id .fetch)

/-- Lets moves happen one after another, each at its moment. -/
def run (t : Traffic) : List (Moment × Move) → Option Traffic
  | [] => some t
  | (now, move) :: rest => (t.next now move).bind fun t => run t rest

end Traffic

end MountSync
