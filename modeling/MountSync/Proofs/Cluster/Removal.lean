/-
What a client has removed on the server.

A batch of local changes sends on what the watch has found.  Whoever gets as far as a removal there
has the lock of the file and asks nothing more: a delete compares no versions, so the server's file
goes, whatever it is.  All that protects it is how the batch was made.

There a name counts as gone if it cannot be looked up, for whatever reason.  So what a batch takes
away from the server is under names that could not be looked up on the client, and nothing else.  Of
a name that the directory can have, and that is not too long, this means that there was no entry, or
that the entry was a link that leads nowhere.
-/
import MountSync.Proofs.Cluster.Transfer
import MountSync.Proofs.Endpoint.Turn
import MountSync.Proofs.Sync.Pass

namespace MountSync

/-! ### What counts as gone

To look a name up can fail for many reasons, and only some of them mean that there is no entry.
-/

namespace Watch

variable {m : Mount} {names : List String} {name : String}

theorem changeOf_eq_removed_iff {other : String} :
    changeOf m other = some ⟨name, .removed⟩ ↔
      other = name ∧ ∃ fault, m.locate name = .error fault := by
  unfold changeOf
  constructor
  · intro change
    split at change
    · exact nomatch change
    · exact nomatch change
    · rename_i fault lost
      cases change
      exact ⟨rfl, fault, lost⟩
  · rintro ⟨rfl, fault, lost⟩
    rw [lost]

/-- The names that count as gone are those that cannot be looked up. -/
theorem removed_mem_settle_iff :
    ⟨name, .removed⟩ ∈ settle m names ↔ name ∈ names ∧ ∃ fault, m.locate name = .error fault := by
  rw [settle, settleEach, List.mem_filterMap]
  constructor
  · rintro ⟨other, mem, change⟩
    obtain ⟨rfl, lost⟩ := changeOf_eq_removed_iff.1 change
    exact ⟨mem, lost⟩
  · rintro ⟨mem, lost⟩
    exact ⟨name, mem, changeOf_eq_removed_iff.2 ⟨rfl, lost⟩⟩

/-- A batch tells of no name that was not asked for. -/
theorem name_mem_of_mem_settle {change : LocalChange} (mem : change ∈ settle m names) :
    change.name ∈ names := by
  obtain ⟨name, asked, is⟩ := List.mem_filterMap.1 mem
  unfold changeOf at is
  split at is <;> cases is <;> exact asked

end Watch

/-- Of a name that can be looked up nothing is found if there is no entry, or a link that leads
nowhere. -/
theorem Mount.Reaches.lost_iff {m : Mount} {name : String} (h : m.Reaches name) :
    (∃ fault, m.locate name = .error fault) ↔
      m.get? (.text name) = none ∨ ∃ node fault, m.get? (.text name) = some node ∧
        node.isLink = true ∧ m.locate name = .error fault := by
  constructor
  · rintro ⟨fault, lost⟩
    cases entry : m.get? (.text name) with
    | none => exact Or.inl rfl
    | some node =>
        refine Or.inr ⟨node, fault, rfl, Bool.of_not_eq_false fun plain => ?_, lost⟩
        exact nomatch lost.symm.trans (h.locate_entry entry plain)
  · rintro (absent | ⟨node, fault, -, -, lost⟩)
    · exact ⟨_, h.locate_none absent⟩
    · exact ⟨fault, lost⟩

/-! ### Removing a file on the server

What is lost is told by the log, connection by connection, so it makes no difference what others do
in between.
-/

/-- A call for a removal removes the one entry, or nothing. -/
theorem Server.serve_delete (s : Server) (times : Schedule) (timeout : UInt64)
    (rest : List Message) {name : String} {client : ClientId}
    (fits : (Request.delete name client).Fits) :
    ∃ s' answer, s.serve times (.ofClientFrame (.call timeout (.delete name client)) :: rest)
        = (s', [answer]) ∧
      (s'.endpoint.mount = s.endpoint.mount ∨
        s.endpoint.mount.Puts name none s'.endpoint.mount) := by
  obtain ⟨s', served, endpoint, -, -⟩ := s.serve_call times timeout rest (.delete name client) fits
  cases starts : s.canStart (.delete name client) with
  | false =>
      rw [s.work_of_not_canStart times timeout rest starts] at served endpoint
      refine ⟨s', _, served, Or.inl ?_⟩
      rw [endpoint]
      exact s.endpoint.mount_expire (stream rest) (.delete name client)
  | true =>
      rw [s.work_of_canStart times timeout rest starts] at served endpoint
      refine ⟨s', _, served, ?_⟩
      rw [endpoint]
      rcases s.endpoint.mount_delete name client (deadline times timeout) times with same | removed
      · exact Or.inl same
      · exact Or.inr (Mount.puts_of_removeFile removed).2

/-- Whether an entry of the server's mount has gone on a connection. -/
def Service.Removes (s : Service) (entry : EntryName) : Prop :=
  (s.before.get? entry).isSome ∧ s.after.get? entry = none

namespace Shared

variable {w w' w'' : Shared} {names : List String} {name : String}

/-- All that the client's connections have removed since one state of the world are entries of the
given names. -/
def Loses (names : List String) (w w' : Shared) : Prop :=
  ∃ new, w'.log = w.log ++ new ∧
    ∀ s ∈ new, ∀ entry, s.Removes entry → ∃ name ∈ names, entry = .text name

theorem Loses.refl (names : List String) (w : Shared) : Loses names w w :=
  ⟨[], (List.append_nil _).symm, nofun⟩

theorem Loses.trans (h : Loses names w w') (h' : Loses names w' w'') : Loses names w w'' := by
  obtain ⟨new, log, lost⟩ := h
  obtain ⟨new', log', lost'⟩ := h'
  refine ⟨new ++ new', by rw [log', log, List.append_assoc], ?_⟩
  intro s mem
  rcases List.mem_append.1 mem with before | after
  · exact lost s before
  · exact lost' s after

/-- A call makes one connection or none. -/
theorem Goes.loses {frames : List ClientFrame} (goes : w.Goes frames w')
    (lost : ∀ entry, (w.met.mount.get? entry).isSome → w'.mount.get? entry = none →
      ∃ name ∈ names, entry = .text name) : Loses names w w' := by
  rcases goes with none | served
  · exact ⟨[], by rw [none.log, List.append_nil], nofun⟩
  · refine ⟨_, served.log, ?_⟩
    intro s mem entry removes
    cases List.mem_singleton.1 mem
    exact lost entry removes.1 removes.2

theorem Goes.loses_of_same {frames : List ClientFrame} (goes : w.Goes frames w')
    (same : w.met.mount.SameAs w'.mount) : Loses names w w' := by
  refine goes.loses fun entry there gone => ?_
  rw [same.get?_eq] at gone
  rw [gone] at there
  exact nomatch there

/-- Where a file is put nothing goes. -/
theorem Stores.loses {timeout : UInt64} {h : StoreHeader} {pieces : List Bytes}
    {result : Except Failure Unit} (stores : w.Stores w' timeout h pieces result) :
    Loses names w w' := by
  cases stores with
  | refused goes same => exact goes.loses_of_same same
  | placed served _ _ _ _ placed =>
      obtain ⟨f, puts, -, -, -⟩ := placed.entry
      refine Goes.loses (Or.inr served) fun entry there gone => ?_
      by_cases own : entry = .text h.name
      · rw [own, puts.entry] at gone
        exact nomatch gone
      · rw [puts.get?_ne own] at gone
        rw [gone] at there
        exact nomatch there

end Shared

namespace Site

variable {x : Site Shared} {names : List String} {name : String}

/-! ### A batch of local changes

A change is sent as a store, which loses nothing, and a removal as a delete, which loses the one
entry at most.
-/

theorem loses_store (named : Frame.TextFits x.name) (name : String) :
    (x.store Peer.shared name).1.client = x.client ∧
      x.world.Loses names (x.store Peer.shared name).1.world := by
  have goes := x.storeGoes named name
  generalize x.store Peer.shared name = r at goes ⊢
  obtain ⟨y, result⟩ := r
  cases goes with
  | spared => exact ⟨rfl, .refl _ _⟩
  | locked client goes same => exact ⟨client, goes.loses_of_same (.of_eq same)⟩
  | sent client goes same sends =>
      obtain @⟨f, place, header, pieces, -, -, rfl, -, -, -, client', stores⟩ := sends
      exact ⟨client'.trans client, (goes.loses_of_same (.of_eq same)).trans stores.loses⟩

/-- The call for a removal removes the one entry, or nothing. -/
theorem loses_exchanged_delete (timeout : Nat) {client : ClientId}
    (fits : (Request.delete name client).Fits) (mem : name ∈ names) :
    x.world.Loses names (x.exchanged Peer.shared timeout (.delete name client) []).1 := by
  have goes := x.goes_exchanged timeout (.delete name client) []
  rcases x.world.exchange_call timeout (.call (.ofNat timeout) (.delete name client)) [] with
    unheard | ⟨-, s, s', times, p, answers, endpoint, carried, mount, -⟩
  · exact goes.loses_of_same (.of_eq unheard.mount)
  have met : s.endpoint.mount = x.world.met.mount := congrArg Endpoint.mount endpoint
  obtain ⟨s₁, answer, served, removes⟩ := s.serve_delete times (.ofNat timeout) (p.cut []) fits
  cases served.symm.trans carried
  rw [met, ← mount] at removes
  rcases removes with same | puts
  · exact goes.loses_of_same (.of_eq same)
  · refine goes.loses fun entry there gone => ?_
    by_cases own : entry = .text name
    · exact ⟨name, mem, own⟩
    · have kept := puts.get?_ne own
      rw [← kept] at there
      exact nomatch (gone ▸ there : (none : Option Node).isSome)

theorem loses_delete (named : Frame.TextFits x.name) (short : Frame.TextFits name)
    (mem : name ∈ names) :
    (x.delete Peer.shared name).1.client = x.client ∧
      x.world.Loses names (x.delete Peer.shared name).1.world := by
  unfold delete requestLock
  obtain ⟨client, world, -⟩ := x.askFor_eq Peer.shared x.config.deadline
    (.requestLock name x.name) [] "lock reply" noContent?
  have goes := x.goes_exchanged x.config.deadline (.requestLock name x.name) []
  have fits : (Request.requestLock name x.name).Fits := ⟨short, named⟩
  have same := x.mount_requestLock x.config.deadline fits
  obtain ⟨⟨y, result⟩, granted⟩ : ∃ r, x.askFor Peer.shared x.config.deadline
    (.requestLock name x.name) [] "lock reply" noContent? = r := ⟨_, rfl⟩
  rw [← world] at goes same
  rw [granted] at client goes same ⊢
  have locked : x.world.Loses names y.world := goes.loses_of_same (.of_eq same)
  cases result with
  | error failure => exact ⟨client, locked⟩
  | ok u =>
      have named' : Frame.TextFits y.name := by
        rw [Site.name, client]
        exact named
      obtain ⟨client', world', -⟩ := y.askFor_eq Peer.shared y.config.deadline
        (.delete name y.name) [] "delete reply" noContent?
      refine ⟨client'.trans client, locked.trans ?_⟩
      show y.world.Loses names (y.askFor Peer.shared y.config.deadline _ _ _ _).1.world
      rw [world']
      exact loses_exchanged_delete y.config.deadline ⟨short, named'⟩ mem

theorem loses_applyChange (named : Frame.TextFits x.name) {change : Watch.LocalChange}
    (short : Frame.TextFits change.name)
    (mem : change.kind = .removed → change.name ∈ names) :
    (x.applyChange Peer.shared change).1.client = x.client ∧
      x.world.Loses names (x.applyChange Peer.shared change).1.world := by
  unfold applyChange
  cases kind : change.kind with
  | changed => exact loses_store named change.name
  | removed => exact loses_delete named short (mem kind)

/-- A batch takes nothing away from the server but the entries of the names that it says are
gone. -/
theorem loses_applyLocalChanges (x : Site Shared) (named : Frame.TextFits x.name)
    (changes : List Watch.LocalChange) (short : ∀ change ∈ changes, Frame.TextFits change.name)
    (gone : ∀ change ∈ changes, change.kind = .removed → change.name ∈ names) :
    x.world.Loses names (x.applyLocalChanges Peer.shared changes).1.world := by
  rw [applyLocalChanges, applyFrom_eq]
  refine (through_induction (Q := fun _ _ => True)
    (P := fun rest y => (∀ change ∈ rest, change ∈ changes) ∧ y.client = x.client ∧
      x.world.Loses names y.world) ?_ ⟨fun _ mem => mem, rfl, .refl _ _⟩
    fun _ _ => trivial).1.2.2
  rintro y change rest ⟨left, client, lost⟩
  obtain ⟨mem, others⟩ := List.forall_mem_cons.1 left
  have named' : Frame.TextFits y.name := by
    rw [Site.name, client]
    exact named
  obtain ⟨client', lost'⟩ := loses_applyChange named' (short change mem) (gone change mem)
  exact ⟨⟨others, client'.trans client, lost.trans lost'⟩, fun _ => trivial, fun _ _ => trivial⟩

/-- **What a batch takes away from the server could not be looked up on the client.**

A name counts as gone exactly if it cannot be looked up.  Of a name that the directory can have and
that is not too long this means that it has no entry, or one that is a link and leads nowhere.  And
whatever else happens on the server meanwhile, all that the batch removes there are entries of names
that could not be looked up. -/
theorem removals_lost (x : Site Shared) (named : Frame.TextFits x.name) (m : Mount)
    (names : List String) (short : ∀ name ∈ names, Frame.TextFits name) :
    (∀ name, ⟨name, .removed⟩ ∈ Watch.settle m names ↔
      name ∈ names ∧ ∃ fault, m.locate name = .error fault) ∧
    (∀ name, m.Reaches name → ((∃ fault, m.locate name = .error fault) ↔
      m.get? (.text name) = none ∨ ∃ node fault, m.get? (.text name) = some node ∧
        node.isLink = true ∧ m.locate name = .error fault)) ∧
    ∃ new, (x.applyLocalChanges Peer.shared (Watch.settle m names)).1.world.log
        = x.world.log ++ new ∧
      ∀ s ∈ new, ∀ entry, s.Removes entry →
        ∃ name ∈ names, entry = .text name ∧ ∃ fault, m.locate name = .error fault := by
  refine ⟨fun _ => Watch.removed_mem_settle_iff, fun _ reached => reached.lost_iff, ?_⟩
  let lost := ((Watch.settle m names).filter (·.kind = .removed)).map Watch.LocalChange.name
  have known : ∀ change ∈ Watch.settle m names, change.kind = .removed → change.name ∈ lost :=
    fun change mem kind => List.mem_map_of_mem (List.mem_filter.2 ⟨mem, by simpa using kind⟩)
  obtain ⟨new, log, removes⟩ := x.loses_applyLocalChanges named (Watch.settle m names)
    (fun change mem => short _ (Watch.name_mem_of_mem_settle mem)) known
  refine ⟨new, log, fun s mem entry gone => ?_⟩
  obtain ⟨name, mem', is⟩ := removes s mem entry gone
  obtain ⟨⟨_, kind⟩, told, rfl⟩ := List.mem_map.1 mem'
  obtain ⟨told, removed⟩ := List.mem_filter.1 told
  obtain rfl : kind = .removed := by simpa using removed
  obtain ⟨asked, fault⟩ := Watch.removed_mem_settle_iff.1 told
  exact ⟨_, asked, is, fault⟩

/-! ### An entry that is still there -/

/-- A client whose only entry is a link to itself, at a server that has a file of the same name. -/
def looped : Site Shared where
  client := ⟨.forTesting "" "" "bob", (Mount.holding []).put (.text "l") (.link "l")⟩
  world := .start (.holding [("l", [1], 5)]) ⟨0, 10⟩

theorem looped_loses :
    Frame.TextFits looped.name ∧ (∀ name ∈ ["l"], Frame.TextFits name) ∧
    ∃ s ∈ (looped.applyLocalChanges Peer.shared (Watch.settle looped.mount ["l"])).1.world.log,
      s.Removes (.text "l") ∧ ∃ fault, looped.mount.locate "l" = .error fault := by
  have named : Frame.TextFits looped.name := by decide +kernel
  have short : ∀ name ∈ ["l"], Frame.TextFits name := by decide
  have gone : (looped.applyLocalChanges Peer.shared
      (Watch.settle looped.mount ["l"])).1.world.log.any (fun s =>
        (s.before.get? (.text "l")).isSome && (s.after.get? (.text "l")).isNone) = true := by
    decide +kernel
  obtain ⟨s, mem, removes⟩ := List.any_eq_true.1 gone
  rw [Bool.and_eq_true, Option.isNone_iff_eq_none] at removes
  refine ⟨named, short, s, mem, removes, ?_⟩
  obtain ⟨-, -, new, log, lost⟩ := removals_lost looped named looped.mount ["l"] short
  rw [log] at mem
  obtain ⟨name, -, is, fault⟩ := lost s mem _ removes
  cases is
  exact fault

/-- A name can count as gone though there is an entry, and a batch then removes a file on the server
whose name has an entry on the client. -/
theorem present_may_be_removed :
    (¬ ∀ (m : Mount) (names : List String) (name : String),
      ⟨name, .removed⟩ ∈ Watch.settle m names → m.get? (.text name) = none) ∧
    ¬ ∀ (x : Site Shared) (names : List String) (name : String), Frame.TextFits x.name →
      (∀ name ∈ names, Frame.TextFits name) → x.world.coming = [] →
      (x.mount.get? (.text name)).isSome → (x.world.mount.get? (.text name)).isSome →
      ((x.applyLocalChanges Peer.shared (Watch.settle x.mount names)).1.world.mount.get?
        (.text name)).isSome := by
  constructor
  · intro always
    have absent := always looped.mount ["l"] "l" (by decide +kernel)
    exact absurd absent (by decide +kernel)
  · intro always
    have kept := always looped ["l"] "l" (by decide +kernel) (by decide) rfl (by decide +kernel)
      (by decide +kernel)
    exact absurd kept (by decide +kernel)

end Site

end MountSync
