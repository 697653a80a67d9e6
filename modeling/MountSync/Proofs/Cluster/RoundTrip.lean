/-
A file that one client stores and another one fetches.

The store puts the whole file on the server, where the copy that was there gives way, and the fetch
brings it to the other client.  From then on all three copies have one checksum and nobody holds
the lock.  A store or a fetch by either client finds this so and leaves it so, because it is refused
before anything is written; hence every further one is refused as well.

A client sends as much of a file as is told of it, and a server takes no less than was announced.  So
all of this is so exactly if the file can be read and as many bytes are told of it as it has.
-/
import MountSync.Proofs.Cluster.Entry

namespace MountSync

inductive Party
  | alice
  | bob
  deriving DecidableEq, Repr, Inhabited

/-- Two clients of one server. -/
structure Pair where
  alice : Client
  bob : Client
  world : Shared
  deriving Inhabited

/-- A transfer of one of the two, and the ways that its calls take. -/
structure Errand where
  party : Party
  direction : Direction
  coming : List Passage
  deriving DecidableEq, Repr

namespace Pair

def client (x : Pair) : Party → Client
  | .alice => x.alice
  | .bob => x.bob

/-- One of the two and the server, with the ways that the next calls take. -/
def site (x : Pair) (party : Party) (coming : List Passage) : Site Shared :=
  ⟨x.client party, { x.world with coming }⟩

/-- Takes over what has become of one of the two and the server. -/
def take (x : Pair) (party : Party) (y : Site Shared) : Pair :=
  match party with
  | .alice => ⟨y.client, x.bob, y.world⟩
  | .bob => ⟨x.alice, y.client, y.world⟩

def store (x : Pair) (name : String) (party : Party) (coming : List Passage) :
    Pair × Except Failure Unit :=
  ((x.site party coming).store Peer.shared name).map (x.take party) id

def fetch (x : Pair) (name : String) (party : Party) (coming : List Passage) :
    Pair × Except Failure Nat :=
  ((x.site party coming).fetch Peer.shared name).map (x.take party) id

/-- Goes on an errand for a file. -/
def go (x : Pair) (name : String) (e : Errand) : Pair × Except Failure Unit :=
  match e.direction with
  | .store => x.store name e.party e.coming
  | .fetch => (x.fetch name e.party e.coming).map id (Except.map fun _ => ())

/-- Goes on errands for a file, one after another. -/
def run (name : String) : Pair → List Errand → Pair × List (Except Failure Unit)
  | x, [] => (x, [])
  | x, e :: rest => ((run name (x.go name e).1 rest).map id ((x.go name e).2 :: ·))

/-! ### Copies that are the same

With the copies the same, the resolver refuses whatever is tried, so nothing but the lock is
touched, and that is given back.
-/

/-- Nothing has changed in any of the mounts. -/
structure Unchanged (x y : Pair) : Prop where
  alice : y.alice = x.alice
  bob : y.bob = x.bob
  server : y.world.mount = x.world.mount

theorem Unchanged.refl (x : Pair) : x.Unchanged x := ⟨rfl, rfl, rfl⟩

theorem Unchanged.trans {x y z : Pair} (h : x.Unchanged y) (h' : y.Unchanged z) :
    x.Unchanged z :=
  ⟨h'.alice.trans h.alice, h'.bob.trans h.bob, h'.server.trans h.server⟩

theorem Unchanged.client {x y : Pair} (h : x.Unchanged y) (party : Party) :
    y.client party = x.client party := by
  cases party with
  | alice => exact h.alice
  | bob => exact h.bob

/-- Everybody has a copy of a file that is not empty and has the given checksum, and nobody holds
its lock. -/
structure InStep (x : Pair) (name : String) (sum : UInt32) : Prop where
  named : ∀ party, Frame.TextFits (x.client party).config.client
  mine : ∀ party, ∃ record, (x.client party).mount.statFile name = .ok (some record) ∧
    record.checksum = sum ∧ record.size ≠ 0
  its : ∃ record, x.world.mount.statFile name = .ok (some record) ∧ record.checksum = sum
  free : x.world.server.endpoint.locks.ownerOf name = none

variable {x y : Pair} {name : String} {sum : UInt32}

theorem InStep.of_unchanged (h : x.InStep name sum) (same : x.Unchanged y)
    (free : y.world.server.endpoint.locks.ownerOf name = none) : y.InStep name sum where
  named := fun party => same.client party ▸ h.named party
  mine := fun party => same.client party ▸ h.mine party
  its := same.server ▸ h.its
  free := free

/-- One of the two that has only spoken with the server has changed nothing of its own. -/
theorem unchanged_take (x : Pair) (party : Party) {w : Shared} (server : w.mount = x.world.mount) :
    x.Unchanged (x.take party ⟨x.client party, w⟩) := by
  cases party with
  | alice => exact ⟨rfl, rfl, server⟩
  | bob => exact ⟨rfl, rfl, server⟩

theorem world_take (x : Pair) (party : Party) (y : Site Shared) :
    (x.take party y).world = y.world := by
  cases party with
  | alice => rfl
  | bob => rfl

/-- An errand for a file of which all have the same copy is refused and changes nothing. -/
theorem InStep.go (h : x.InStep name sum) {e : Errand} (calm : (x.site e.party e.coming).Calm) :
    UpToDate (x.go name e).2 ∧ x.Unchanged (x.go name e).1 ∧
      (x.go name e).1.InStep name sum := by
  obtain ⟨mine, stat, same, nonempty⟩ := h.mine e.party
  obtain ⟨its, there, same'⟩ := h.its
  have may : (x.site e.party e.coming).MayLock name := by
    refine ⟨h.named e.party, ?_⟩
    intro owner held
    exact nomatch h.free.symm.trans held
  have equal : its.checksum = mine.checksum := same'.trans same.symm
  unfold Pair.go
  cases e.direction with
  | store =>
      obtain ⟨w, result, stored, refused, server, free⟩ :=
        calm.store_of_upToDate may stat nonempty there equal
      have unchanged := x.unchanged_take e.party server
      dsimp only
      rw [Pair.store, stored]
      exact ⟨refused, unchanged, h.of_unchanged unchanged ((x.world_take e.party _).symm ▸ free)⟩
  | fetch =>
      obtain ⟨w, result, fetched, ⟨failure, rfl, kind⟩, server, locks⟩ :=
        calm.fetch_of_upToDate stat there equal
      have unchanged := x.unchanged_take e.party server
      have free : w.server.endpoint.locks.ownerOf name = none := locks ▸ h.free
      dsimp only
      rw [Pair.fetch, fetched]
      exact ⟨⟨failure, rfl, kind⟩, unchanged,
        h.of_unchanged unchanged ((x.world_take e.party _).symm ▸ free)⟩

/-- Whether nothing gets in the way of a call does not depend on what is in the mounts. -/
theorem calm_site {party : Party} {coming : List Passage}
    (config : (y.client party).config = (x.client party).config)
    (calm : (x.site party coming).Calm) : (y.site party coming).Calm := by
  have positive := calm.positive
  have undisturbed := calm.coming
  constructor
  · rw [Site.config, site, config]
    exact positive
  · rw [Site.config, site, config]
    exact undisturbed

/-- **Once all have the same copy of a file, every errand for it is refused and changes
nothing.** -/
theorem InStep.run (h : x.InStep name sum) {errands : List Errand}
    (calm : ∀ e ∈ errands, (x.site e.party e.coming).Calm) :
    (∀ result ∈ (x.run name errands).2, UpToDate result) ∧
      (x.run name errands).2.length = errands.length ∧ x.Unchanged (x.run name errands).1 := by
  -- Each errand leaves the copies and the lock as the next one needs them.
  induction errands generalizing x with
  | nil => exact ⟨List.forall_mem_nil _, rfl, .refl x⟩
  | cons e rest ih =>
      obtain ⟨first, others⟩ := List.forall_mem_cons.1 calm
      obtain ⟨refused, same, next⟩ := h.go first
      obtain ⟨refusals, length, same'⟩ := ih next fun e' mem =>
        calm_site (congrArg Client.config (same.client e'.party)) (others e' mem)
      exact ⟨List.forall_mem_cons.2 ⟨refused, refusals⟩, congrArg Nat.succ length,
        same.trans same'⟩

/-! ### From one client to the other

What is told of a file is what is announced, so a file is stored as a whole only if as many bytes
are told of it as it has.
-/

/-- Alice has a file that is not empty, and she may store it: the server has none, or one that is
different and not newer, and nobody else holds the lock.  Bob has nothing under its name. -/
structure Ready (x : Pair) (name : String) (f : File) : Prop where
  named : ∀ party, Frame.TextFits (x.client party).config.client
  accepted : Mount.accepts name = true
  source : ∃ place, x.alice.mount.locate name = .ok (place, .file f)
  nonempty : f.content ≠ []
  server : x.world.mount.Admits name
  free : x.world.mount.get? (.text name) ≠ some .directory
  yields : x.world.mount.Yields name f
  unlocked : ∀ owner, x.world.server.endpoint.locks.ownerOf name = some owner →
    owner = x.alice.config.client
  bob : x.bob.mount.Admits name
  vacant : x.bob.mount.get? (.text name) = none

variable {f : File}

/-- Alice's store puts her file on the server, if it can be read and as many bytes are told of it as
it has. -/
theorem Ready.store (h : x.Ready name f) (sized : f.IsSized) {coming : List Passage}
    (calm : (x.site .alice coming).Calm) :
    ∃ w now, x.store name .alice coming = (⟨x.alice, x.bob, w⟩, .ok ()) ∧
      x.world.mount.Placed now name f.content w.mount ∧
      w.server.endpoint.locks.ownerOf name = none := by
  obtain ⟨place, found⟩ := h.source
  obtain ⟨w, stored, placed, free, -⟩ := calm.store_of_yields ⟨h.named .alice, h.unlocked⟩
    h.accepted found sized h.nonempty h.server.entered h.free h.yields
  refine ⟨w, w.now.calendar, ?_, placed, free⟩
  rw [Pair.store, stored]
  rfl

/-- If alice's store succeeds and has put all of her file on the server, the file can be read and as
many bytes are told of it as it has. -/
theorem Ready.sized_of_stored (h : x.Ready name f) {coming : List Passage}
    (calm : (x.site .alice coming).Calm) (stored : (x.store name .alice coming).2 = .ok ())
    (whole : (x.store name .alice coming).1.world.mount.contentOf? name = some f.content) :
    f.IsSized := by
  obtain ⟨place, found⟩ := h.source
  obtain ⟨read, announced, now, placed⟩ := (calm.alone (h.named .alice)).store_told found stored
  have small : f.told.length < 2 ^ 64 := by
    rw [announced]
    exact UInt64.toNat_lt _
  obtain ⟨g, has, told, -⟩ := placed.has h.server small
  have content : some g.content = some f.content := has.contentOf?.symm.trans whole
  refine ⟨read, ?_⟩
  rw [← announced, ← told, Option.some.inj content]

/-- Bob's fetch brings him what the server has by then. -/
theorem Ready.fetch (h : x.Ready name f) {w : Shared} {g : File} (has : w.mount.Has name g)
    {coming : List Passage} (calm : (x.site .bob coming).Calm) :
    ∃ w' m now, Pair.fetch ⟨x.alice, x.bob, w⟩ name .bob coming
        = (⟨x.alice, { x.bob with mount := m }, w'⟩, .ok g.content.length) ∧
      x.bob.mount.Placed now name g.content m ∧ w'.mount = w.mount ∧
      w'.server.endpoint.locks = w.server.endpoint.locks := by
  have free : x.bob.mount.get? (.text name) ≠ some .directory := by
    rw [h.vacant]
    exact nofun
  have absent : x.bob.mount.statFile name = .ok none :=
    Mount.statFile_of_missing h.accepted (h.bob.locate_none h.vacant)
  have calm' : (Pair.site ⟨x.alice, x.bob, w⟩ .bob coming).Calm := by
    refine calm_site ?_ calm
    rfl
  obtain ⟨w', server, locks, -, fetches, -⟩ := calm'.fetch_of_yields h.accepted has.locate has.plain
    (Or.inl absent)
  obtain ⟨m, fetched, placed⟩ := fetches ⟨h.bob.entered, free⟩
  refine ⟨w', m, w'.resumed.calendar, ?_, placed, server, locks⟩
  rw [Pair.fetch, fetched]
  rfl

/-- The record of a file that has the given content. -/
theorem record_of_found {m : Mount} {place : Place} (accepted : Mount.accepts name = true)
    (found : m.locate name = .ok (place, .file f)) (sized : f.IsSized)
    (nonempty : f.content ≠ []) :
    ∃ record, m.statFile name = .ok (some record) ∧
      record.checksum = fileChecksum f.content ∧ record.size ≠ 0 :=
  ⟨_, Mount.statFile_of_file accepted found sized.read, rfl, sized.size_ne_zero nonempty⟩

/-- **What alice stores and bob then fetches is alice's file, on the server and with bob; and after
that every store or fetch of the file by either of them is refused and changes nothing.**

This holds for a file that can be read and of which as many bytes are told as it has, and so for every
file that keeps its content.  Of any other file the store does not put all on the server, or does not
succeed. -/
theorem store_then_fetch (x : Pair) (name : String) (f : File) (h : x.Ready name f)
    (onStore onFetch : List Passage) (calmStore : (x.site .alice onStore).Calm)
    (calmFetch : (x.site .bob onFetch).Calm) :
    let stored := x.store name .alice onStore
    let fetched := stored.1.fetch name .bob onFetch
    (f.IsPlain → f.IsSized) ∧
    (stored.2 = .ok () → stored.1.world.mount.contentOf? name = some f.content → f.IsSized) ∧
    (f.IsSized →
      (stored.2 = .ok () ∧ stored.1.world.mount.contentOf? name = some f.content ∧
        stored.1.alice = x.alice ∧ stored.1.bob = x.bob) ∧
      (fetched.2 = .ok f.content.length ∧
        fetched.1.bob.mount.contentOf? name = some f.content ∧ fetched.1.alice = x.alice ∧
        fetched.1.world.mount = stored.1.world.mount) ∧
      ∀ errands : List Errand, (∀ e ∈ errands, (x.site e.party e.coming).Calm) →
        let after := fetched.1.run name errands
        (∀ result ∈ after.2, UpToDate result) ∧ after.2.length = errands.length ∧
          fetched.1.Unchanged after.1) := by
  dsimp only
  refine ⟨File.IsPlain.isSized, h.sized_of_stored calmStore, ?_⟩
  intro sized
  obtain ⟨place, source⟩ := h.source
  obtain ⟨w, now, stored, placed, free⟩ := h.store sized calmStore
  obtain ⟨g, its, same, -⟩ := placed.has h.server sized.small
  rw [stored]
  obtain ⟨w', m, now', fetched, placed', server, locks⟩ := h.fetch its calmFetch
  rw [same] at fetched placed'
  obtain ⟨g', bobs, same', -⟩ := placed'.has h.bob sized.small
  rw [fetched]
  refine ⟨⟨rfl, same ▸ its.contentOf?, rfl, rfl⟩, ⟨rfl, same' ▸ bobs.contentOf?, rfl, server⟩, ?_⟩
  intro errands calm
  -- All three copies have the checksum of alice's, so nothing more can be transferred.
  have inStep : Pair.InStep ⟨x.alice, { x.bob with mount := m }, w'⟩ name
      (fileChecksum f.content) := by
    refine ⟨?_, ?_, ?_, ?_⟩
    · intro party
      cases party with
      | alice => exact h.named .alice
      | bob => exact h.named .bob
    · intro party
      cases party with
      | alice => exact record_of_found h.accepted source sized h.nonempty
      | bob =>
          rw [← same']
          exact record_of_found h.accepted bobs.locate bobs.plain.isSized (same' ▸ h.nonempty)
    · refine ⟨Mount.recordOf name g g.content, ?_, congrArg fileChecksum same⟩
      rw [server]
      exact its.stat
    · rw [locks]
      exact free
  refine inStep.run ?_
  intro e mem
  refine calm_site ?_ (calm e mem)
  cases e.party <;> rfl

/-- A call that takes almost as long as it may. -/
def slow : Passage where
  before := []
  times := ⟨⟨20, 30⟩, ⟨5000, 31⟩, ⟨5019, 32⟩⟩
  busy := 0
  refused := none
  outgoing := .whole
  incoming := .whole
  resumed := ⟨5019, 33⟩

theorem undisturbed_slow : slow.Undisturbed 5000 :=
  ⟨rfl, rfl, rfl, rfl, rfl, by decide, by decide⟩

def letter : File := ⟨[1, 2, 3, 4, 5, 6, 7], .atSecond 9, 0, none⟩

/-- Alice sends pieces of three bytes, and holds the lock already.  The server is to send pieces of
no bytes, and has an older file of the same name.  Bob has another file. -/
def apart : Pair where
  alice := ⟨{ ClientConfig.forTesting "" "" "alice" with chunkSize := 3 },
    .holding [("letter", letter.content, 9)]⟩
  bob := ⟨.forTesting "" "" "bob", .holding [("other", [8], 4)]⟩
  world :=
    let served := Mount.holding [("letter", [9, 9], 5)]
    let server := Server.create { ServerConfig.forTesting "" with chunkSize := 0 } served
    let locks := (server.endpoint.locks.acquire "letter" "alice").1
    { Shared.start served ⟨0, 10⟩ with
      server := server.withEndpoint (server.endpoint.withLocks locks) }

theorem ready_apart : apart.Ready "letter" letter where
  named := by
    intro party
    cases party <;> decide +kernel
  accepted := by decide +kernel
  source := ⟨[.text "letter", .text "mnt"], by decide +kernel⟩
  nonempty := by decide
  server := ⟨by decide +kernel, by decide +kernel, ⟨by decide +kernel, by decide +kernel⟩,
    by decide +kernel⟩
  free := by decide +kernel
  yields := Or.inr ⟨⟨"letter", 2, fileChecksum [9, 9], 5, 5⟩, by decide +kernel,
    by decide +kernel, by decide +kernel⟩
  unlocked := by
    have held : apart.world.server.endpoint.locks.ownerOf "letter" = some "alice" := by
      decide +kernel
    intro owner same
    exact (Option.some.inj (held.symm.trans same)).symm
  bob := ⟨by decide +kernel, by decide +kernel, ⟨by decide +kernel, by decide +kernel⟩,
    by decide +kernel⟩
  vacant := by decide +kernel

/-- Everybody tries everything once more. -/
def onceMore : List Errand :=
  [⟨.alice, .store, [slow]⟩, ⟨.bob, .store, []⟩, ⟨.alice, .fetch, []⟩, ⟨.bob, .fetch, [slow]⟩]

theorem calm_apart (party : Party) (coming : List Passage) (ways : ∀ p ∈ coming, p = slow) :
    (apart.site party coming).Calm := by
  have deadline : UInt64.ofNat (apart.client party).config.deadline = 5000 := by
    cases party <;> rfl
  have calm : ({ apart.world with coming } : Shared).Calm 5000 :=
    ⟨by decide, fun p mem => ways p mem ▸ undisturbed_slow⟩
  rwa [← deadline] at calm

theorem apart_store_then_fetch :
    apart.Ready "letter" letter ∧
    letter.IsSized ∧
    (apart.site .alice [slow, slow]).Calm ∧
    (apart.site .bob [slow]).Calm ∧ (∀ e ∈ onceMore, (apart.site e.party e.coming).Calm) ∧
    let stored := apart.store "letter" .alice [slow, slow]
    let fetched := stored.1.fetch "letter" .bob [slow]
    let after := fetched.1.run "letter" onceMore
    stored.2 = .ok () ∧ stored.1.world.mount.contentOf? "letter" = some [1, 2, 3, 4, 5, 6, 7] ∧
    fetched.2 = .ok 7 ∧ fetched.1.bob.mount.contentOf? "letter" = some [1, 2, 3, 4, 5, 6, 7] ∧
    (∀ result ∈ after.2, UpToDate result) ∧ after.2.length = 4 ∧ fetched.1.Unchanged after.1 := by
  have onStore := calm_apart .alice [slow, slow] (by decide)
  have onFetch := calm_apart .bob [slow] (by decide)
  have later : ∀ e ∈ onceMore, (apart.site e.party e.coming).Calm := by
    have ways : ∀ e ∈ onceMore, ∀ p ∈ e.coming, p = slow := by decide
    exact fun e mem => calm_apart e.party e.coming (ways e mem)
  obtain ⟨-, -, transfers⟩ :=
    store_then_fetch apart "letter" letter ready_apart _ _ onStore onFetch
  have sized : letter.IsSized := ⟨rfl, by decide⟩
  obtain ⟨⟨stored, onServer, -, -⟩, ⟨fetched, withBob, -, -⟩, run⟩ := transfers sized
  exact ⟨ready_apart, sized, onStore, onFetch, later, stored, onServer, fetched, withBob,
    run onceMore later⟩

/-- Alice has a file that is said to be empty, and nobody else has anything. -/
def lone : Pair where
  alice := ⟨.forTesting "" "" "alice", .unsized⟩
  bob := ⟨.forTesting "" "" "bob", .holding []⟩
  world := .start (.holding []) ⟨0, 10⟩

/-- What alice may store and can read need not get to the server, if not as many bytes are told of it
as it has. -/
theorem store_need_not_succeed :
    ¬ ∀ (x : Pair) (name : String) (f : File) (onStore : List Passage), x.Ready name f →
      f.read = .ok f.content → (x.site .alice onStore).Calm →
      (x.store name .alice onStore).2 = .ok () := by
  intro claim
  let f : File := ⟨[76, 105, 110, 117, 120, 10], .atSecond 5, 1, some ⟨0, none⟩⟩
  have ready : lone.Ready "f" f := {
    named := by
      intro party
      cases party <;> decide +kernel
    accepted := by decide +kernel
    source := ⟨[.text "ostype"], rfl⟩
    nonempty := by decide
    server := ⟨by decide +kernel, rfl, ⟨by decide +kernel, by decide +kernel⟩, by decide +kernel⟩
    free := nofun
    yields := Or.inl (by decide +kernel)
    unlocked := nofun
    bob := ⟨by decide +kernel, rfl, ⟨by decide +kernel, by decide +kernel⟩, by decide +kernel⟩
    vacant := rfl }
  have calm : (lone.site .alice []).Calm := ⟨by decide, nofun⟩
  have stored := claim lone "f" f [] ready rfl calm
  exact absurd stored (by decide +kernel)

end Pair

end MountSync
