/-
A delete that runs alone removes one entry, or nothing.

It has six ways to end, in this order: its name is refused; its client is not the owner; there is
nothing under the name; the deadline has passed; the entry cannot be removed; it is removed.

Whether there is something is asked through links, but it is the entry itself that goes.  So a link
that leads nowhere is not removed, and of one that leads somewhere only the link is.  What is there
and cannot be removed can only be a directory, for the name was just found.
-/
import MountSync.Proofs.Endpoint.Ending

namespace MountSync

/-- Whatever is there can be removed, unless it is a directory. -/
theorem Mount.exists_removeFile {m : Mount} {name : String} (there : (m.get? (.text name)).isSome)
    (file : m.get? (.text name) ≠ some .directory) : ∃ m', m.removeFile name = .ok m' := by
  unfold removeFile
  split
  · rename_i missing
    rw [missing] at there
    exact nomatch there
  · rename_i directory
    exact absurd directory file
  · exact ⟨_, rfl⟩

namespace DeleteCall

/-- The endpoint once the entry is removed: its row is dropped, and everybody is told. -/
def removed (e : Endpoint) (name : String) (client : ClientId) (mount : Mount) : Endpoint :=
  (((e.withMount mount).withLocks (e.locks.delete name client).1).count countCompleted).announce
    name .deleted

/-- How a delete ends, and what it leaves. -/
inductive Exit (e : Endpoint) (name : String) (client : ClientId) (d : Deadline) (s : Schedule) :
    Endpoint × Except Failure Unit → Prop
  | invalid {failure : Failure} : Mount.checkName name = .error failure →
      Exit e name client d s (e, .error failure)
  | foreign : e.locks.isOwner name client = false →
      Exit e name client d s (e, .error (.notLockHolder client name))
  | absent : e.fileExists name = false →
      Exit e name client d s (e.disposeLock name client false, .error (.notOnServer name))
  | late : d.isExpired s.decision.instant = true →
      Exit e name client d s (e.disposeLock name client true, .error .deadlineExceeded)
  | refused {fault : IoFault} : e.mount.removeFile name = .error fault →
      Exit e name client d s (e.disposeLock name client (e.mount.existsOr true name),
        .error (.cannotRemove name fault))
  | removed {mount : Mount} : Mount.checkName name = .ok () →
      e.locks.isOwner name client = true → e.fileExists name = true →
      d.isExpired s.decision.instant = false → e.mount.removeFile name = .ok mount →
        Exit e name client d s (removed e name client mount, .ok ())

end DeleteCall

/-- What it takes for a delete to succeed. -/
structure DeleteCall.Succeeds (e : Endpoint) (name : String) (client : ClientId) (d : Deadline)
    (s : Schedule) : Prop where
  accepted : Mount.accepts name = true
  owner : e.locks.ownerOf name = some client
  /-- There is something at the end of all links. -/
  present : e.mount.tryExists name = .ok true
  inTime : d.isExpired s.decision.instant = false
  /-- The entry itself can be removed. -/
  file : e.mount.get? (.text name) ≠ some .directory

/-- What becomes of an endpoint when the file of a name is removed. -/
structure Endpoint.Loses (e : Endpoint) (name : String) (e' : Endpoint) : Prop where
  /-- The entry itself is gone, and it is the only one. -/
  mount : e.mount.Puts name none e'.mount
  /-- What a link has led to is still there. -/
  target : ∀ p node, e.mount.locate name = .ok (p, node) → p ≠ e.mount.placeOf (.text name) →
    e'.mount.tree.get? p = some node
  row : e'.locks.contains name = false
  locks : e'.locks =
    { e.locks with rows := e.locks.rows.erase name, deleted := e.locks.deleted + 1 }
  feed : e'.feed = { e.feed with events := e.feed.events.push ⟨name, .deleted⟩ }
  stats : e'.stats = { e.stats with deletesCompleted := e.stats.deletesCompleted + 1 }
  chunkSize : e'.chunkSize = e.chunkSize

namespace Endpoint

variable {e : Endpoint} {name : String} {client : ClientId} {d : Deadline} {s : Schedule}

theorem delete_exit (e : Endpoint) (name : String) (client : ClientId) (d : Deadline)
    (s : Schedule) : DeleteCall.Exit e name client d s (e.delete name client d s) := by
  let c := DeleteCall.begin name client d
  -- Each look either is the last one or leads on to the next.
  rcases checked : Mount.checkName name with failure | valid
  · have first : c.step e s.arrival = (e, c.fail failure) := by
      show (e, c.checkCaller e) = _
      rw [DeleteCall.checkCaller, show Mount.checkName c.name = _ from checked]
    rw [delete, first]
    exact .invalid checked
  have first : c.step e s.arrival = (e, if e.locks.isOwner name client then c.goTo .owner
      else c.fail (.notLockHolder client name)) := by
    show (e, c.checkCaller e) = _
    rw [DeleteCall.checkCaller, show Mount.checkName c.name = _ from checked]
    rfl
  by_cases foreign : e.locks.isOwner name client = false
  · rw [foreign, if_neg Bool.false_ne_true] at first
    rw [delete, first]
    exact .foreign foreign
  have owner := Bool.of_not_eq_false foreign
  rw [owner, if_pos rfl] at first
  rw [delete, first]
  have second : (c.goTo .owner).step e s.decision =
      if !e.fileExists name then (e, c.goTo .absent)
      else if d.isExpired s.decision.instant then (e, c.goTo (.disposing .deadlineExceeded true))
      else (e, c.goTo .present) := rfl
  dsimp only
  rw [second]
  by_cases absent : e.fileExists name = false
  · rw [absent, Bool.not_false, if_pos rfl]
    exact .absent absent
  have present := Bool.of_not_eq_false absent
  rw [present, Bool.not_true, if_neg Bool.false_ne_true]
  by_cases late : d.isExpired s.decision.instant = true
  · rw [late, if_pos rfl]
    exact .late late
  rw [if_neg late]
  have third : (c.goTo .present).step e s.transfer = (c.goTo .present).remove e := rfl
  dsimp only
  rw [third, DeleteCall.remove, show (c.goTo .present).name = name from rfl]
  rcases removal : e.mount.removeFile name with fault | mount
  · exact .refused removal
  let c' := (c.goTo .present).goTo .removed
  have last : c'.step (e.withMount mount) s.transfer
      = (DeleteCall.removed e name client mount, c'.goTo (.finished (.ok ()))) := by
    have dropped : e.locks.delete name client = ((e.locks.delete name client).1, true) :=
      Prod.ext rfl (LockTable.delete_of_owner (LockTable.isOwner_iff.1 owner))
    show DeleteCall.conclude (e.withMount mount) _ = _
    rw [DeleteCall.conclude, show (e.withMount mount).locks.delete c'.name c'.client = _ from dropped]
    rfl
  dsimp only
  rw [last]
  exact .removed checked owner present (Bool.not_eq_true _ ▸ late) removal

theorem loses_of_removeFile {mount : Mount} (owner : e.locks.isOwner name client = true)
    (removal : e.mount.removeFile name = .ok mount) :
    e.Loses name (DeleteCall.removed e name client mount) := by
  obtain ⟨-, puts⟩ := Mount.puts_of_removeFile removal
  have locks : (e.locks.delete name client).1 =
      { e.locks with rows := e.locks.rows.erase name, deleted := e.locks.deleted + 1 } := by
    rw [LockTable.delete, if_pos owner]
  refine ⟨puts, fun p node found other => ?_, ?_, locks, rfl, rfl, rfl⟩
  · exact (puts.others p other).trans (Mount.get?_of_locate found)
  · show (e.locks.delete name client).1.contains name = false
    rw [locks, LockTable.contains, Table.contains, Table.get?_erase_self]
    rfl

/-- A delete that fails has left the mount and the feed as they were. -/
theorem delete_cases (e : Endpoint) (name : String) (client : ClientId) (d : Deadline)
    (s : Schedule) :
    (DeleteCall.Succeeds e name client d s ∧ (e.delete name client d s).2 = .ok () ∧
      e.Loses name (e.delete name client d s).1) ∨
    (¬ DeleteCall.Succeeds e name client d s ∧
      (∃ failure, (e.delete name client d s).2 = .error failure) ∧
        (e.delete name client d s).1.mount = e.mount ∧
        (e.delete name client d s).1.feed = e.feed) := by
  have exit := e.delete_exit name client d s
  generalize e.delete name client d s = r at exit ⊢
  cases exit with
  | invalid checked =>
      refine Or.inr ⟨fun succeeds => ?_, ⟨_, rfl⟩, rfl, rfl⟩
      rw [Mount.checkName, if_pos succeeds.accepted] at checked
      cases checked
  | foreign other =>
      refine Or.inr ⟨fun succeeds => ?_, ⟨_, rfl⟩, rfl, rfl⟩
      exact absurd (LockTable.isOwner_iff.2 succeeds.owner) (ne_true_of_eq_false other)
  | absent absent =>
      refine Or.inr ⟨fun succeeds => ?_, ⟨_, rfl⟩, rfl, rfl⟩
      exact absurd (Mount.existsOr_false_iff.2 succeeds.present) (ne_true_of_eq_false absent)
  | late late =>
      refine Or.inr ⟨fun succeeds => ?_, ⟨_, rfl⟩, rfl, rfl⟩
      exact absurd late (ne_true_of_eq_false succeeds.inTime)
  | refused removal =>
      refine Or.inr ⟨fun succeeds => ?_, ⟨_, rfl⟩, rfl, rfl⟩
      have there := Mount.isSome_of_existsOr succeeds.accepted
        (Mount.existsOr_false_iff.2 succeeds.present)
      obtain ⟨mount, removed⟩ := Mount.exists_removeFile there succeeds.file
      cases removal.symm.trans removed
  | removed checked owner present inTime removal =>
      refine Or.inl ⟨⟨Mount.accepts_of_checkName checked, LockTable.isOwner_iff.1 owner,
        Mount.existsOr_false_iff.1 present, inTime, (Mount.puts_of_removeFile removal).1⟩, rfl, ?_⟩
      exact loses_of_removeFile owner removal

/-- **A delete removes one entry or nothing.**

It succeeds exactly if its name is accepted, its client is the owner, there is something under the name
when all links are followed, the deadline has not passed, and the entry itself is no directory.  Then
the entry is gone, a link itself and not what it leads to, with its row; one event is told of it; and
nothing else is different.  Otherwise the mount and the feed are as they were. -/
theorem delete_one_or_nothing (e : Endpoint) (name : String) (client : ClientId) (d : Deadline)
    (s : Schedule) :
    let r := e.delete name client d s
    (r.2 = .ok () ↔ DeleteCall.Succeeds e name client d s) ∧
    (r.2 = .ok () → e.Loses name r.1) ∧
    (r.2 ≠ .ok () → r.1.mount = e.mount ∧ r.1.feed = e.feed) := by
  intro r
  rcases e.delete_cases name client d s with
    ⟨succeeds, ok, loses⟩ | ⟨fails, ⟨failure, error⟩, mount, feed⟩
  · exact ⟨iff_of_true ok succeeds, fun _ => loses, fun failed => absurd ok failed⟩
  · have unsaid : r.2 ≠ .ok () := by
      intro ok
      cases error.symm.trans ok
    exact ⟨iff_of_false unsaid fails, fun ok => absurd ok unsaid, fun _ => ⟨mount, feed⟩⟩

end Endpoint

end MountSync
