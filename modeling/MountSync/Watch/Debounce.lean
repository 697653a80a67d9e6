/-
Waiting until a burst of events is over.

Every event that touches a name starts a quiet period anew.  When one passes without a
further event, all names touched since the last time are looked up together and what became
of them goes out as one batch.
-/
import MountSync.Watch.Settle

namespace MountSync.Watch

/-- The quiet period, in milliseconds. -/
def quietPeriod : Nat := 200

/-- Adds a name to an ascending list, unless it is there. -/
def insertName (name : String) : List String → List String
  | [] => [name]
  | first :: rest =>
    if name = first then first :: rest
    else if name < first then name :: first :: rest
    else first :: insertName name rest

/-- What a watcher remembers. -/
structure Watcher where
  /-- The names touched since the last batch, in ascending order. -/
  pending : List String
  /-- When the quiet period is over, if one has begun. -/
  timer : Option Nat
  running : Bool
  deriving DecidableEq, Repr, Inhabited

/-- What a watcher can be woken by. -/
inductive Signal
  | event (e : Event)
  /-- The watch reports trouble of its own. -/
  | trouble
  /-- No further events can come. -/
  | sourceGone
  | timer
  /-- The value of the shutdown switch may have changed; `none` if nobody can turn it any
  more. -/
  | shutdown (value : Option Bool)
  deriving DecidableEq, Repr, Inhabited

namespace Watcher

def start : Watcher := ⟨[], none, true⟩

/-- Remembers names that were touched. -/
def touch (w : Watcher) (now : Nat) (names : List String) : Watcher :=
  if names = [] then w
  else
    { w with
      pending := names.foldl (fun pending name => insertName name pending) w.pending
      timer := some (now + quietPeriod) }

/-- Looks up all that is pending.  `found` is the mount as it is when a name is looked up, and
`listening` says whether somebody takes the batch; if nobody does the watcher ends. -/
def flush (w : Watcher) (found : String → Mount) (listening : Bool) :
    Watcher × Option (List LocalChange) :=
  let batch := settleEach found w.pending
  let quiet := { w with pending := [], timer := none }
  if batch = [] then (quiet, none)
  else if listening then (quiet, some batch)
  else ({ quiet with running := false }, none)

/-- Goes on with one signal, and tells the batch that is due, if one is.  The timer counts
only when a quiet period is over.  `mount` is the path of the mount `m`, which may change while
names are looked up, and `current` the directory in which relative paths begin. -/
def step (current : Place) (mount : Path) (m : Mount) (found : String → Mount) (now : Nat)
    (listening : Bool) (w : Watcher) (s : Signal) : Watcher × Option (List LocalChange) :=
  if !w.running then (w, none)
  else match s with
    | .event e => (w.touch now (touchedNames m.tree current mount e), none)
    | .trouble => (w, none)
    | .sourceGone => ({ w with running := false }, none)
    | .timer =>
      match w.timer with
      | some due => if due ≤ now then w.flush found listening else (w, none)
      | none => (w, none)
    | .shutdown value => (if value = some false then w else { w with running := false }, none)

end Watcher

end MountSync.Watch
