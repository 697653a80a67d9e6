/-
Scripts for one client.
-/
import MountSync.Scenario.Mount
import MountSync.Sync.Pass

namespace MountSync.Scenario

/-- Something that a client is asked to do. -/
inductive ClientStep
  | requestLock (name : String)
  | store (name : String)
  | fetch (name : String)
  | delete (name : String)
  | list
  | stat (name : String)
  | checksum (name : String)
  | compareMtime (name : String)
  | changeNotification
  /-- Looks at the client's own copy. -/
  | localRecord (name : String)
  /-- Asks who the client is and where it keeps a file. -/
  | identity (name : String)
  | poll
  | reconcile (manifest : List FileRecord)
  | apply (changes : List Watch.LocalChange)
  deriving DecidableEq, Repr, Inhabited

inductive ClientAnswer
  | unit (r : Except Failure Unit)
  | size (r : Except Failure Nat)
  | listed (r : Except Failure (List ListEntry))
  | stated (r : Except Failure FileRecord)
  | checksum (r : Except Failure UInt32)
  | same (r : Except Failure Bool)
  | manifest (r : Except Failure (List FileRecord))
  | record (r : Except Failure (Option FileRecord))
  /-- The path is that inside the mount. -/
  | identity (client : ClientId) (path : Except Failure String)
  /-- With the number of manifests received so far. -/
  | polled (r : Except Failure Report) (rounds : Nat)
  | report (r : Report)

/-- A client with what is on the other side, and the number of manifests it has received. -/
structure Player (σ : Type) where
  site : Site σ
  rounds : Nat

namespace Player

variable {σ : Type}

def create (config : ClientConfig) (mount : Mount) (world : σ) : Player σ :=
  ⟨⟨⟨config, mount⟩, world⟩, 0⟩

def mount (x : Player σ) : Mount := x.site.mount

def withMount (x : Player σ) (mount : Mount) : Player σ := { x with site := x.site.withMount mount }

def withSite {α : Type} (x : Player σ) (answer : α → ClientAnswer) (r : Site σ × α) :
    Player σ × ClientAnswer :=
  ({ x with site := r.1 }, answer r.2)

/-- Plays one step. -/
def play (p : Peer σ) (x : Player σ) : ClientStep → Player σ × ClientAnswer
  | .requestLock name => x.withSite .unit (x.site.requestLock p name)
  | .store name => x.withSite .unit (x.site.store p name)
  | .fetch name => x.withSite .size (x.site.fetch p name)
  | .delete name => x.withSite .unit (x.site.delete p name)
  | .list => x.withSite .listed (x.site.list p)
  | .stat name => x.withSite .stated (x.site.stat p name)
  | .checksum name => x.withSite .checksum (x.site.checksum p name)
  | .compareMtime name => x.withSite .same (x.site.compareMtime p name)
  | .changeNotification => x.withSite .manifest (x.site.changeNotification p)
  | .localRecord name => (x, .record (x.site.localRecord name))
  | .identity name => (x, .identity x.site.name (Mount.resolve "" name))
  | .poll =>
    let (site, result) := x.site.pollOnce p
    let rounds := if result matches .ok _ then x.rounds + 1 else x.rounds
    (⟨site, rounds⟩, .polled result rounds)
  | .reconcile manifest => x.withSite .report (x.site.reconcile p manifest)
  | .apply changes => x.withSite .report (x.site.applyLocalChanges p changes)

/-- Plays a step on the files of the client. -/
def playFile (p : Peer σ) (x : Player σ) (step : FileStep) : Player σ × FileAnswer :=
  let (mount, answer) := step.play x.mount (p.today x.site.world)
  (x.withMount mount, answer)

/-- Sets the clock of the files to that of the script. -/
def restampAll (p : Peer σ) (x : Player σ) (step : Nat) : Player σ :=
  x.withMount (restampMount x.mount (p.today x.site.world) step)

end Player

/-- Whether a step brings the mount in step and so waits until no other pass is under way.  A
round does so only once it has the manifest. -/
def entersPass : ClientAnswer → Bool
  | .report _ => true
  | .polled (.ok _) _ => true
  | _ => false

/-- A step of a script for a client. -/
inductive ClientAction
  | file (step : FileStep)
  | call (step : ClientStep)
  deriving DecidableEq, Repr, Inhabited

inductive ClientNote
  | file (a : FileAnswer)
  /-- With the frames that reached the other side. -/
  | call (a : ClientAnswer) (sent : List ClientFrame)

/-- Plays steps from step number `number` on.  `takeSent` takes out of the other side what has
reached it. -/
def playClient {σ : Type} (p : Peer σ) (takeSent : σ → σ × List ClientFrame) :
    (number : Nat) → Player σ → List ClientAction → Player σ × List ClientNote
  | _, x, [] => (x, [])
  | number, x, .file step :: rest =>
    let (x, answer) := x.playFile p step
    let (x, answers) := playClient p takeSent (number + 1) (x.restampAll p number) rest
    (x, .file answer :: answers)
  | number, x, .call step :: rest =>
    let (x, answer) := x.play p step
    let (world, sent) := takeSent x.site.world
    let x : Player σ := { x with site := { x.site with world } }
    let (x, answers) := playClient p takeSent (number + 1) (x.restampAll p number) rest
    (x, .call answer sent :: answers)

end MountSync.Scenario
