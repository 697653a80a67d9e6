/-
Two clients that have edited one file.

Each of them has a copy that is newer than the server's.  Whoever goes first stores its copy, and
what is stored shows the time at which it was stored; when it was edited is not kept.  So the
server's copy is now newer than the other client's, whichever of the two was edited later, and the
other client fetches it.  From then on all three copies are the same, and further rounds leave them
alone.

Rounds bring other files in step as well.  These make no difference as long as the server always has
a manifest, which is so if calls can use the names in its mount.
-/
import MountSync.Proofs.Cluster.Round
import MountSync.Proofs.Cluster.RoundTrip
import Mathlib.Logic.Function.Basic

namespace MountSync

/-- A file that was written in a second shows no earlier time. -/
theorem Timestamp.le_unixTime_atSecond (t : UnixTime) : t ≤ (atSecond t).unixTime := by
  unfold unixTime atSecond
  dsimp only
  split
  · rename_i before
    exact Int64.le_of_lt before
  · exact Int64.le_refl _

namespace Site

variable {x : Site Shared} {name : String} {manifest : List FileRecord}

/-! ### A server that always has a manifest -/

theorem Moves.listable {x' : Site Shared} (h : Moves name x x')
    (listable : x.world.mount.Listable) (there : (x.world.mount.get? (.text name)).isSome) :
    x'.world.mount.Listable := by
  cases h with
  | kept _ its => exact listable.same its
  | fetched _ its => exact listable.same its
  | stored _ its =>
      obtain ⟨-, g, -, -, -, placed⟩ := its.copied
      exact listable.placed placed there

/-- A pass over names that the server has leaves it with a manifest. -/
theorem Alone.listable_reconcile (h : x.Alone) (listable : x.world.mount.Listable)
    (there : ∀ r ∈ manifest, (x.world.mount.get? (.text r.name)).isSome) :
    (x.reconcile Peer.shared manifest).1.world.mount.Listable := by
  have all : (x.reconcile Peer.shared manifest).1.Alone ∧
      (x.reconcile Peer.shared manifest).1.world.mount.Listable ∧
      ∀ r ∈ manifest, ((x.reconcile Peer.shared manifest).1.world.mount.get?
        (.text r.name)).isSome := by
    refine reconcile_induction Peer.shared x (P := fun y => y.Alone ∧ y.world.mount.Listable ∧
      ∀ r ∈ manifest, (y.world.mount.get? (.text r.name)).isSome) ?_ ⟨h, listable, there⟩
    rintro y r mem ⟨alone, listable, there⟩
    obtain ⟨moves, alone'⟩ := alone.reconcileEntry r
    refine ⟨alone', moves.listable listable (there r mem), fun s mem' => ?_⟩
    obtain ⟨node, entry⟩ := Option.isSome_iff_exists.1 (there s mem')
    rcases (moves.spares (List.mem_singleton_self _)).2.entry entry with same | ⟨-, f, replaced⟩
    · exact Option.isSome_iff_exists.2 ⟨node, same⟩
    · exact Option.isSome_iff_exists.2 ⟨_, replaced⟩
  exact all.2.1

theorem Calm.listable_pollOnce (calm : x.Calm) (named : Frame.TextFits x.name)
    (listable : x.world.mount.Listable) : (x.pollOnce Peer.shared).1.world.mount.Listable := by
  obtain ⟨records, made, few⟩ := listable.enumerate
  obtain ⟨y, polled, client, mount, calm', -⟩ := calm.pollOnce made few
  have named' : Frame.TextFits y.name := by
    rw [Site.name, client]
    exact named
  rw [polled]
  refine (calm'.alone named').listable_reconcile (mount ▸ listable) fun r mem => ?_
  obtain ⟨f, shows⟩ := (Mount.mem_enumerate made).1 (List.mem_map_of_mem mem)
  rw [mount]
  exact shows.present

end Site

/-! ### Rounds of two clients

The two are treated alike: what is shown of a round is shown of a party and the other one, and is
used for either of them.
-/

def Party.other : Party → Party
  | alice => bob
  | bob => alice

theorem Party.eq_or_eq_other (p q : Party) : q = p ∨ q = p.other := by
  cases p <;> cases q <;> simp [other]

theorem Party.other_ne (p : Party) : p.other ≠ p := by
  cases p <;> exact nofun

theorem Party.other_other (p : Party) : p.other.other = p := by
  cases p <;> rfl

/-- A round of one of two clients, and the ways that its calls take. -/
structure Round where
  party : Party
  coming : List Passage
  deriving DecidableEq, Repr

namespace Pair

def poll (x : Pair) (r : Round) : Pair × Except Failure Report :=
  ((x.site r.party r.coming).pollOnce Peer.shared).map (x.take r.party) id

/-- Rounds, one after another. -/
def rounds : Pair → List Round → Pair × List (Except Failure Report)
  | x, [] => (x, [])
  | x, r :: rest => (rounds (x.poll r).1 rest).map id ((x.poll r).2 :: ·)

theorem client_take_self (x : Pair) (p : Party) (y : Site Shared) :
    (x.take p y).client p = y.client := by
  cases p <;> rfl

theorem client_take_ne (x : Pair) {p q : Party} (different : q ≠ p) (y : Site Shared) :
    (x.take p y).client q = x.client q := by
  cases p <;> cases q <;> first | rfl | exact absurd rfl different

/-- Everybody has a file, and nobody its lock, and the server always has a manifest. -/
structure Holds (x : Pair) (name : String) (mine : Party → File) (its : File) : Prop where
  named : ∀ party, Frame.TextFits (x.client party).config.client
  mine : ∀ party, (x.client party).mount.Has name (mine party)
  its : x.world.mount.Has name its
  free : x.world.server.endpoint.locks.ownerOf name = none
  listable : x.world.mount.Listable

variable {x : Pair} {name : String} {f : Party → File} {g : File} {r : Round}

/-- What one of the two and the server have after a round is what everybody has. -/
theorem Holds.take (h : x.Holds name f g) {p : Party} {y : Site Shared}
    (config : y.config = (x.client p).config) {f' g' : File} (mine : y.mount.Has name f')
    (its : y.world.mount.Has name g') (free : y.world.server.endpoint.locks.ownerOf name = none)
    (listable : y.world.mount.Listable) :
    (x.take p y).Holds name (Function.update f p f') g' := by
  have world := x.world_take p y
  refine ⟨fun q => ?_, fun q => ?_, world ▸ its, world ▸ free, world ▸ listable⟩
  · by_cases same : q = p
    · rw [same, client_take_self]
      have named := h.named p
      rwa [← config] at named
    · rw [x.client_take_ne same]
      exact h.named q
  · by_cases same : q = p
    · rw [same, client_take_self, Function.update_self]
      exact mine
    · rw [x.client_take_ne same, Function.update_of_ne same]
      exact h.mine q

/-- A round that comes to its end, and leaves the clients as they are set up. -/
structure Ends (x : Pair) (r : Round) : Prop where
  report : ∃ report, (x.poll r).2 = .ok report
  config : ∀ party, ((x.poll r).1.client party).config = (x.client party).config

/-- A client and the server when the entry of the file comes up. -/
structure Meets (x : Pair) (name : String) (f g : File) (y : Site Shared) : Prop where
  calm : y.Calm
  named : Frame.TextFits y.name
  later : x.world.now.calendar ≤ y.world.now.calendar
  mine : y.mount.Has name f
  its : y.world.mount.Has name g
  free : y.world.server.endpoint.locks.ownerOf name = none

theorem Meets.mayLock {y : Site Shared} {f : File} (h : x.Meets name f g y) : y.MayLock name :=
  ⟨h.named, fun _ held => nomatch h.free.symm.trans held⟩

/-- What the entry of the file leaves. -/
structure Leaves (y : Site Shared) (name : String) (f g : File) : Prop where
  mine : y.mount.Has name f
  its : y.world.mount.Has name g
  free : y.world.server.endpoint.locks.ownerOf name = none

/-- A round comes to its end, and what the client's entry leaves is what everybody has then. -/
theorem Holds.poll (h : x.Holds name f g) (calm : (x.site r.party r.coming).Calm) :
    x.Ends r ∧ ∃ y, x.Meets name (f r.party) g y ∧ ∀ f' g',
      Leaves (y.reconcileEntry Peer.shared (Mount.recordOf name g g.content)).1 name f' g' →
        (x.poll r).1.Holds name (Function.update f r.party f') g' := by
  have named : Frame.TextFits (x.site r.party r.coming).name := h.named r.party
  obtain ⟨records, made, few⟩ := h.listable.enumerate
  obtain ⟨report, y, polled, before, calm', after, -⟩ :=
    Site.Calm.pollOnce_of_has calm named made few h.its
  have named' : Frame.TextFits y.name := before.named ▸ named
  obtain ⟨config, -⟩ := calm'.reconcileEntry_onward named' (Mount.recordOf name g g.content)
  have config' := after.config.trans (config.trans before.config)
  refine ⟨⟨⟨report, polled⟩, fun party => ?_⟩, y, ⟨calm', named', before.now,
    (h.mine r.party).agrees before.mine, h.its.agrees before.its, before.owner.trans h.free⟩, ?_⟩
  · by_cases same : party = r.party
    · rw [same]
      exact (congrArg Client.config (x.client_take_self r.party _)).trans config'
    · exact congrArg Client.config (x.client_take_ne same _)
  · intro f' g' leaves
    exact h.take config' (leaves.mine.agrees after.mine) (leaves.its.agrees after.its)
      (after.owner.trans leaves.free) (Site.Calm.listable_pollOnce calm named h.listable)

/-- A round of a client whose copy is newer puts it on the server. -/
theorem Holds.poll_newer (h : x.Holds name f g) (calm : (x.site r.party r.coming).Calm)
    (nonempty : (f r.party).content ≠ [])
    (differs : fileChecksum (f r.party).content ≠ fileChecksum g.content)
    (newer : g.modified.unixTime < (f r.party).modified.unixTime) :
    x.Ends r ∧ ∃ g', (x.poll r).1.Holds name f g' ∧ g'.content = (f r.party).content ∧
      x.world.now.calendar ≤ g'.modified.unixTime := by
  obtain ⟨ends, y, meets, holds⟩ := h.poll calm
  obtain ⟨y', went, stored⟩ :=
    meets.calm.entry_stored meets.mayLock meets.mine meets.its differs newer nonempty
  obtain ⟨g', its, content, t, modified, later⟩ := stored.its
  have mine : y'.mount.Has name (f r.party) := by
    rw [Site.mount, stored.client]
    exact meets.mine
  rw [went] at holds
  have holds' := holds (f r.party) g' ⟨mine, its, stored.owner⟩
  rw [Function.update_eq_self] at holds'
  refine ⟨ends, g', holds', content, ?_⟩
  rw [modified]
  exact Int64.le_trans meets.later (Int64.le_trans later (Timestamp.le_unixTime_atSecond t))

/-- A round of a client whose copy is older replaces it by the server's. -/
theorem Holds.poll_older (h : x.Holds name f g) (calm : (x.site r.party r.coming).Calm)
    (differs : fileChecksum (f r.party).content ≠ fileChecksum g.content)
    (older : (f r.party).modified.unixTime < g.modified.unixTime) :
    x.Ends r ∧ ∃ f', (x.poll r).1.Holds name (Function.update f r.party f') g ∧
      f'.content = g.content := by
  obtain ⟨ends, y, meets, holds⟩ := h.poll calm
  obtain ⟨y', b, went, placed, -⟩ := meets.calm.entry_fetched meets.its meets.mine.stat (by
    rintro _ ⟨⟩
    exact ⟨differs, older⟩)
  obtain ⟨-, fetched⟩ := placed meets.mine.canPlace
  obtain ⟨f', mine, content, -⟩ := fetched.mine
  rw [went] at holds
  exact ⟨ends, f', holds f' g ⟨mine, fetched.its ▸ meets.its, fetched.owner.trans meets.free⟩,
    content⟩

/-- A round of a client whose copy is the same changes nothing. -/
theorem Holds.poll_same (h : x.Holds name f g) (calm : (x.site r.party r.coming).Calm)
    (same : fileChecksum (f r.party).content = fileChecksum g.content) :
    x.Ends r ∧ (x.poll r).1.Holds name f g := by
  obtain ⟨ends, y, meets, holds⟩ := h.poll calm
  rw [Site.entry_same meets.mine same] at holds
  have holds' := holds (f r.party) g ⟨meets.mine, meets.its, meets.free⟩
  rw [Function.update_eq_self] at holds'
  exact ⟨ends, holds'⟩

/-- Once the copies are the same, rounds change nothing, however many there are. -/
theorem Holds.rounds_same (h : x.Holds name f g)
    (same : ∀ party, fileChecksum (f party).content = fileChecksum g.content) {list : List Round}
    (calm : ∀ r ∈ list, (x.site r.party r.coming).Calm) :
    (∀ result ∈ (x.rounds list).2, ∃ report, result = .ok report) ∧
      (x.rounds list).1.Holds name f g := by
  induction list generalizing x with
  | nil => exact ⟨nofun, h⟩
  | cons r rest ih =>
      obtain ⟨first, others⟩ := List.forall_mem_cons.1 calm
      obtain ⟨ends, next⟩ := h.poll_same first (same r.party)
      obtain ⟨reports, holds⟩ := ih next fun s mem =>
        calm_site (ends.config s.party) (others s mem)
      exact ⟨List.forall_mem_cons.2 ⟨ends.report, reports⟩, holds⟩

/-- **Of two clients that have edited a file the one that goes first has its way.**  After a round
of each, and however many there are then, everybody has its copy; so everybody has the newest copy
exactly if the client that edited the file last goes first. -/
theorem first_round_wins (x : Pair) (name : String) (f : Party → File) (g : File)
    (holds : x.Holds name f g) (nonempty : ∀ party, (f party).content ≠ [])
    (newer : ∀ party, g.modified.unixTime < (f party).modified.unixTime)
    (past : ∀ party, (f party).modified.unixTime < x.world.now.calendar)
    (edited : ∀ party, fileChecksum (f party).content ≠ fileChecksum g.content)
    (differs : fileChecksum (f .alice).content ≠ fileChecksum (f .bob).content)
    (first second : Round) (turn : second.party = first.party.other) (more : List Round)
    (calm : ∀ r ∈ first :: second :: more, (x.site r.party r.coming).Calm) :
    let after := x.rounds (first :: second :: more)
    (∀ result ∈ after.2, ∃ report, result = .ok report) ∧
      after.1.world.mount.contentOf? name = some (f first.party).content ∧
      (∀ party, (after.1.client party).mount.contentOf? name = some (f first.party).content) ∧
      ∀ p, after.1.world.mount.contentOf? name = some (f p).content ↔ p = first.party := by
  obtain ⟨calm₁, calm⟩ := List.forall_mem_cons.1 calm
  obtain ⟨calm₂, calm⟩ := List.forall_mem_cons.1 calm
  obtain ⟨ends₁, g', holds₁, content, later⟩ :=
    holds.poll_newer calm₁ (nonempty _) (edited _) (newer _)
  have rivals : ∀ p : Party,
      fileChecksum (f p.other).content ≠ fileChecksum (f p).content := by
    intro p
    cases p with
    | alice => exact differs.symm
    | bob => exact differs
  have rival : fileChecksum (f second.party).content ≠ fileChecksum g'.content := by
    rw [turn, content]
    exact rivals first.party
  -- What has just been stored is newer than what the other client has.
  have older : (f second.party).modified.unixTime < g'.modified.unixTime :=
    Int64.lt_of_lt_of_le (past _) later
  obtain ⟨ends₂, f', holds₂, content'⟩ :=
    holds₁.poll_older (calm_site (ends₁.config _) calm₂) rival older
  have all : ∀ party, (Function.update f second.party f' party).content = g'.content := by
    intro party
    rcases second.party.eq_or_eq_other party with rfl | same
    · rw [Function.update_self]
      exact content'
    · rw [Function.update_of_ne (same ▸ second.party.other_ne), content, same, turn,
        Party.other_other]
  have calm₃ : ∀ r ∈ more,
      (((x.poll first).1.poll second).1.site r.party r.coming).Calm := fun r mem =>
    calm_site ((ends₂.config _).trans (ends₁.config _)) (calm r mem)
  obtain ⟨reports, holds₃⟩ := holds₂.rounds_same (fun party => by rw [all party]) calm₃
  have onServer := holds₃.its.contentOf?
  rw [content] at onServer
  refine ⟨List.forall_mem_cons.2 ⟨ends₁.report, List.forall_mem_cons.2 ⟨ends₂.report, reports⟩⟩,
    onServer, fun party => ?_, fun p => ?_⟩
  · have held := (holds₃.mine party).contentOf?
    rwa [all, content] at held
  · constructor
    · intro there
      have same := Option.some.inj (onServer.symm.trans there)
      rcases first.party.eq_or_eq_other p with here | other
      · exact here
      · rw [other] at same
        exact absurd (congrArg fileChecksum same.symm) (rivals first.party)
    · rintro rfl
      exact onServer

/-- Alice and bob have edited the server's file, bob last.  Each has another file as well. -/
def rivals : Pair where
  alice := ⟨.forTesting "" "" "alice", .holding [("letter", [1, 2], 8), ("hers", [6], 3)]⟩
  bob := ⟨.forTesting "" "" "bob", .holding [("letter", [3, 4, 5], 9), ("his", [7], 4)]⟩
  world := .start (.holding [("letter", [5], 5)]) ⟨0, 20⟩

/-- The copies of the two. -/
def copies : Party → File
  | .alice => ⟨[1, 2], .atSecond 8, 0, none⟩
  | .bob => ⟨[3, 4, 5], .atSecond 9, 0, none⟩

def original : File := ⟨[5], .atSecond 5, 0, none⟩

theorem holds_rivals : rivals.Holds "letter" copies original where
  named := by
    intro party
    cases party <;> decide +kernel
  mine := by
    intro party
    cases party <;>
      exact ⟨⟨by decide +kernel, by decide +kernel, ⟨by decide +kernel, by decide +kernel⟩,
        by decide +kernel⟩, by decide +kernel, rfl, by decide⟩
  its := ⟨⟨by decide +kernel, by decide +kernel, ⟨by decide +kernel, by decide +kernel⟩,
    by decide +kernel⟩, by decide +kernel, rfl, by decide⟩
  free := by decide +kernel
  listable := by
    have ordinary : rivals.world.mount.Ordinary := by decide +kernel
    exact ordinary.listable (by decide +kernel) (by decide +kernel) (by decide +kernel)

theorem calm_rivals (party : Party) : (rivals.site party []).Calm := by
  constructor
  · cases party <;> decide
  · exact List.forall_mem_nil _

/-- The newest copy can be lost: it is, if the client that has it goes second. -/
theorem newest_may_lose :
    ¬ ∀ (x : Pair) (name : String) (f : Party → File) (g : File) (p q : Party), x.Holds name f g →
      (∀ party, (f party).content ≠ []) →
      g.modified.unixTime < (f .alice).modified.unixTime →
      (f .alice).modified.unixTime < (f .bob).modified.unixTime →
      (f .bob).modified.unixTime < x.world.now.calendar →
      (∀ party, fileChecksum (f party).content ≠ fileChecksum g.content) →
      fileChecksum (f .alice).content ≠ fileChecksum (f .bob).content →
      (∀ party, (x.site party []).Calm) →
      let after := (x.rounds [⟨p, []⟩, ⟨p.other, []⟩, ⟨q, []⟩, ⟨q.other, []⟩]).1
      after.world.mount.contentOf? name = some (f .bob).content ∧
        ∀ party, (after.client party).mount.contentOf? name = some (f .bob).content := by
  intro claim
  have edited : ∀ party, fileChecksum (copies party).content ≠ fileChecksum original.content := by
    intro party
    cases party <;> decide +kernel
  obtain ⟨onServer, -⟩ := claim rivals "letter" copies original .alice .alice holds_rivals
    (by intro party; cases party <;> exact nofun) (by decide) (by decide) (by decide) edited
    (by decide +kernel) calm_rivals
  exact absurd onServer (by decide +kernel)

/-- If bob goes first, everybody has his copy. -/
theorem rivals_rounds :
    rivals.Holds "letter" copies original ∧
    let rounds : List Round := [⟨.bob, []⟩, ⟨.alice, []⟩, ⟨.alice, []⟩, ⟨.bob, []⟩]
    (∀ r ∈ rounds, (rivals.site r.party r.coming).Calm) ∧
    let after := rivals.rounds rounds
    (∀ result ∈ after.2, ∃ report, result = .ok report) ∧
    after.1.world.mount.contentOf? "letter" = some [3, 4, 5] ∧
    (∀ party, (after.1.client party).mount.contentOf? "letter" = some [3, 4, 5]) ∧
    ∀ p, after.1.world.mount.contentOf? "letter" = some (copies p).content ↔ p = .bob := by
  have calm : ∀ r ∈ ([⟨.bob, []⟩, ⟨.alice, []⟩, ⟨.alice, []⟩, ⟨.bob, []⟩] : List Round),
      (rivals.site r.party r.coming).Calm := by
    have none : ∀ r ∈ ([⟨.bob, []⟩, ⟨.alice, []⟩, ⟨.alice, []⟩, ⟨.bob, []⟩] : List Round),
        r.coming = [] := by decide
    intro r mem
    rw [none r mem]
    exact calm_rivals r.party
  refine ⟨holds_rivals, calm, ?_⟩
  refine first_round_wins rivals "letter" copies original holds_rivals ?_ ?_ ?_ ?_
    (by decide +kernel) ⟨.bob, []⟩ ⟨.alice, []⟩ rfl [⟨.alice, []⟩, ⟨.bob, []⟩] calm
  · intro party
    cases party <;> exact nofun
  · intro party
    cases party <;> decide
  · intro party
    cases party <;> decide
  · intro party
    cases party <;> decide +kernel

end Pair

end MountSync
