/-
The loop that keeps a mount in step.

Rounds follow one another; after one that failed the loop pauses.  A switch tells it to end.
The loop is told when the switch is turned, and also when nobody is left who could turn it.
-/
import MountSync.Time

namespace MountSync

/-- The switch that ends a loop, as the loop sees it. -/
structure Switch where
  value : Bool
  /-- Whether it was turned since the loop last took notice. -/
  news : Bool
  /-- Whether there is somebody left who could turn it. -/
  held : Bool
  deriving DecidableEq, Repr, Inhabited

/-- A switch that is off and was never turned. -/
def Switch.off : Switch := ⟨false, false, true⟩

/-- What a loop is doing. -/
inductive LoopPhase
  /-- About to look at the switch. -/
  | looking
  /-- In a round. -/
  | polling
  /-- Pausing after a round that failed. -/
  | pausing
  | stopped
  deriving DecidableEq, Repr, Inhabited

structure SyncLoop where
  phase : LoopPhase
  switch : Switch
  /-- How many rounds were begun. -/
  begun : Nat
  deriving DecidableEq, Repr, Inhabited

/-- What can happen to a loop. -/
inductive LoopEvent
  /-- The switch is set, by whoever holds it. -/
  | turn (value : Bool)
  /-- Whoever holds the switch lets go of it. -/
  | letGo
  /-- The loop goes on: it looks at the switch. -/
  | look
  /-- The round is over. -/
  | roundOver (succeeded : Bool)
  /-- The pause is over. -/
  | pauseOver
  /-- The loop takes notice of the switch. -/
  | notice
  deriving DecidableEq, Repr, Inhabited

namespace SyncLoop

def start : SyncLoop := ⟨.looking, .off, 0⟩

def goTo (l : SyncLoop) (phase : LoopPhase) : SyncLoop := { l with phase }

/-- Where a loop goes that waits and takes notice of the switch: on, if it was turned; off,
if a round is given up because nobody holds it; and on from a pause in any case.  Nothing
happens while the switch is held and was not turned. -/
def takeNotice (l : SyncLoop) (ifLetGo : LoopPhase) : Option SyncLoop :=
  if l.switch.news then some { l with phase := .looking, switch := { l.switch with news := false } }
  else if l.switch.held then none
  else some (l.goTo ifLetGo)

/-- What an event makes of a loop; nothing, if it cannot happen. -/
def step (l : SyncLoop) (e : LoopEvent) : Option SyncLoop :=
  match e, l.phase with
  | .turn value, _ =>
    if l.switch.held then some { l with switch := { l.switch with value, news := true } } else none
  | .letGo, _ =>
    if l.switch.held then some { l with switch := { l.switch with held := false } } else none
  | .look, .looking =>
    if l.switch.value then some (l.goTo .stopped)
    else some { l with phase := .polling, begun := l.begun + 1 }
  | .roundOver true, .polling => some (l.goTo .looking)
  | .roundOver false, .polling => some (l.goTo .pausing)
  | .pauseOver, .pausing => some (l.goTo .looking)
  | .notice, .polling => l.takeNotice .stopped
  | .notice, .pausing => l.takeNotice .looking
  | _, _ => none

/-- Lets events happen one after another. -/
def run (l : SyncLoop) : List LoopEvent → Option SyncLoop
  | [] => some l
  | e :: rest => (l.step e).bind fun l => run l rest

end SyncLoop

end MountSync
