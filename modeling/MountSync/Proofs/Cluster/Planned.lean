/-
What is planned is not overruled.

A client plans from the server's manifest, and whoever receives the transfer decides again from what
is there by then.  In a pass over a manifest that was just made the two decisions agree: the entries
before one leave its file as it is on both sides, so the resolver meets the two copies that the plan
was made for.  What is left to go wrong is not about the copies.  A file may not be put in place, an
empty one is not stored, and neither is one that another client has locked.
-/
import MountSync.Proofs.Cluster.Settled
import MountSync.Proofs.Conflict
import MountSync.Proofs.Server.Kind

namespace MountSync

/-! ### From a plan to the decision of the receiver

Plan and decision compare the same checksums and the same times, from different ends, so what the
one transfers the other lets proceed.
-/

theorem proceeds_of_plan_fetch {found : Option FileRecord} {its : FileRecord}
    (planned : plan found its = .fetch) :
    resolve .fetch (found.map FileRecord.version) its.version = .proceed := by
  cases found with
  | none => rfl
  | some mine =>
      have rows := agreed mine its
      rw [planned] at rows
      show resolve .fetch (some mine.version) its.version = .proceed
      generalize resolve .fetch (some mine.version) its.version = fetch,
        resolve .store (some its.version) mine.version = store at rows ⊢
      cases rows
      rfl

theorem proceeds_of_plan_store {found : Option FileRecord} {its : FileRecord}
    (planned : plan found its = .store) :
    ∃ mine, found = some mine ∧ resolve .store (some its.version) mine.version = .proceed := by
  cases found with
  | none => cases planned
  | some mine =>
      have rows := agreed mine its
      rw [planned] at rows
      refine ⟨mine, rfl, ?_⟩
      generalize resolve .fetch (some mine.version) its.version = fetch,
        resolve .store (some its.version) mine.version = store at rows ⊢
      cases rows
      rfl

/-! ### Results that overrule a plan -/

/-- A result that says that the copies are the same, or that the source is older. -/
def Overruled {α : Type} (result : Except Failure α) : Prop :=
  ∃ failure, result = .error failure ∧ (failure.kind = .alreadyExists ∨ failure.kind = .cancelled)

theorem not_overruled_ok {α : Type} (a : α) : ¬ Overruled (.ok a) := by
  rintro ⟨failure, is, -⟩
  cases is

/-- A failure of another kind overrules nothing. -/
theorem not_overruled_error {α : Type} {failure : Failure} (k : FailureKind)
    (kind : failure.kind = k) (other : k ≠ .alreadyExists ∧ k ≠ .cancelled) :
    ¬ Overruled (.error failure : Except Failure α) := by
  rintro ⟨failure', is, same | older⟩
  · cases is
    exact other.1 (kind.symm.trans same)
  · cases is
    exact other.2 (kind.symm.trans older)

namespace Site

variable {x : Site Shared} {name : String} {g : File} {found : Option FileRecord}

/-- To be told that another client holds a lock is not to be overruled, even if what is told cannot
be read. -/
theorem Declined.not_overruled {α : Type} {owner : ClientId} {failure : Failure}
    (declined : Declined name owner failure) :
    ¬ Overruled (.error failure : Except Failure α) := by
  obtain ⟨status, is⟩ : ∃ status, (Failure.locked name (some owner)).status = status := ⟨_, rfl⟩
  rw [Declined, is] at declined
  have told : Message.replyIn [.ofServerFrame (.refusal status), .close] = .error failure :=
    declined
  rw [Message.replyIn, Message.ofServerFrame, Message.nextFrame] at told
  rcases ServerFrame.decode_refusal status with ⟨fault, read⟩ | ⟨status', read⟩
  · -- The names are too long for the refusal to be read, so the link is to blame.
    rw [read] at told
    cases told
    exact not_overruled_error .link rfl (by decide)
  · rw [read] at told
    cases told
    obtain ⟨sent, same, code⟩ := ServerFrame.refusal_of_decode read
    cases same
    have exhausted : status'.code = .resourceExhausted := code.symm.trans (is ▸ rfl)
    refine not_overruled_error .resourceExhausted ?_ (by decide)
    unfold Failure.ofStatus
    rw [exhausted]
    rfl

/-! ### An entry for which a transfer is planned -/

/-- A fetch that is planned is carried out, unless the client's own machine refuses the file. -/
theorem Calm.fetch_of_plan (calm : x.Calm) (its : x.world.mount.Has name g)
    (stat : x.mount.statFile name = .ok found)
    (planned : plan found (Mount.recordOf name g g.content) = .fetch) :
    let b := (x.reconcileEntry Peer.shared (Mount.recordOf name g g.content)).2
    ¬ Overruled (x.fetch Peer.shared name).2 ∧
      (b = .fetched ∧ x.mount.CanPlace name ∨ b = .failed ∧ ¬ x.mount.CanPlace name) := by
  have yields := Mount.yields_of_proceed stat (proceeds_of_plan_fetch planned)
  obtain ⟨w, -, -, -, placed, refused⟩ :=
    calm.fetch_of_yields its.admits.accepted its.locate its.plain yields
  dsimp only
  rw [reconcileEntry_of_stat stat planned, carryOut]
  by_cases can : x.mount.CanPlace name
  · obtain ⟨m, fetched, -⟩ := placed can
    rw [fetched]
    exact ⟨not_overruled_ok _, Or.inl ⟨rfl, can⟩⟩
  · obtain ⟨m, fault, fetched, -⟩ := refused can
    rw [fetched]
    exact ⟨not_overruled_error .io rfl (by decide), Or.inr ⟨rfl, can⟩⟩

/-- A store that is planned is carried out, unless the file is empty or another client has the lock
on it. -/
theorem Calm.store_of_plan (calm : x.Calm) (named : Frame.TextFits x.name)
    (ordinary : ∀ node, x.mount.get? (.text name) = some node → node.isOrdinary = true)
    (its : x.world.mount.Has name g) (stat : x.mount.statFile name = .ok found)
    (planned : plan found (Mount.recordOf name g g.content) = .store) :
    let b := (x.reconcileEntry Peer.shared (Mount.recordOf name g g.content)).2
    ¬ Overruled (x.store Peer.shared name).2 ∧
      (b = .stored ∨ (b = .skipped ∨ b = .failed) ∧
        ((∃ mine, found = some mine ∧ mine.size = 0) ∨
          ∃ owner, x.world.server.endpoint.locks.ownerOf name = some owner ∧ owner ≠ x.name)) := by
  obtain ⟨record, rfl, proceeds⟩ := proceeds_of_plan_store planned
  obtain ⟨f, mine, rfl⟩ := Mount.has_of_statFile ordinary stat
  dsimp only
  rw [reconcileEntry_of_stat stat planned, carryOut]
  by_cases empty : f.content = []
  · have size := mine.size_of_empty empty
    rw [store_of_empty stat size]
    exact ⟨not_overruled_error .notFound rfl (by decide),
      Or.inr ⟨Or.inl rfl, Or.inl ⟨_, rfl, size⟩⟩⟩
  by_cases free : ∀ owner, x.world.server.endpoint.locks.ownerOf name = some owner → owner = x.name
  · have yields : x.world.mount.Yields name f :=
      Mount.yields_of_proceed its.stat proceeds
    obtain ⟨w, stored, -⟩ := calm.store_of_yields ⟨named, free⟩ mine.admits.accepted mine.locate
      mine.plain.isSized empty its.admits.entered its.canPlace.2 yields
    rw [stored]
    exact ⟨not_overruled_ok _, Or.inl rfl⟩
  · simp only [not_forall] at free
    obtain ⟨owner, held, foreign⟩ := free
    obtain ⟨w, failure, refused, declined, -⟩ := calm.store_of_held named stat
      (mine.plain.isSized.size_ne_zero empty) held foreign
    rw [refused]
    exact ⟨declined.not_overruled,
      Or.inr ⟨Booking.ofResult_error .stored failure, Or.inr ⟨owner, held, foreign⟩⟩⟩

/-! ### A pass

By induction on the entries before the one in question, none of which is about its file.
-/

/-- What becomes of a transfer that is planned for an entry when its turn comes, and of the entry in
the report. -/
structure Passes (y : Site Shared) (r : FileRecord) (report : Report) : Prop where
  /-- A fetch fails if the client's own machine refuses the file. -/
  fetch : ∀ found, y.localRecord r.name = .ok found → plan found r = .fetch →
    ¬ Overruled (y.fetch Peer.shared r.name).2 ∧
      (report.Books r.name .fetched ∧ y.mount.CanPlace r.name ∨
        report.Books r.name .failed ∧ ¬ y.mount.CanPlace r.name)
  /-- A store is passed over if there is nothing to store, or if another client holds the lock; it
  fails if the client cannot read that. -/
  store : ∀ found, y.localRecord r.name = .ok found → plan found r = .store →
    ¬ Overruled (y.store Peer.shared r.name).2 ∧
      (report.Books r.name .stored ∨ (report.Books r.name .skipped ∨ report.Books r.name .failed) ∧
        ((∃ mine, found = some mine ∧ mine.size = 0) ∨
          ∃ owner, y.world.server.endpoint.locks.ownerOf r.name = some owner ∧ owner ≠ y.name))

/-- An entry of the manifest that was just made passes when its turn comes. -/
theorem Calm.passes (calm : x.Calm) (named : Frame.TextFits x.name) (mine : x.mount.Ordinary)
    (its : x.world.mount.Ordinary) {before after : List FileRecord} {r : FileRecord}
    (made : x.world.mount.enumerate = .ok (before ++ r :: after)) :
    (x.reconcile Peer.shared before).1.Passes r
      (x.reconcile Peer.shared (before ++ r :: after)).2 := by
  obtain ⟨stats, distinct⟩ := Mount.enumerate_spec made
  have mem : r ∈ before ++ r :: after := List.mem_append_right _ (List.mem_cons_self ..)
  obtain ⟨g, has, is⟩ := Mount.has_of_statFile (fun _ => its.isOrdinary) (stats r mem)
  -- The entries before this one are of other names, so the server still has what was enumerated.
  obtain ⟨agrees, calm', -, books⟩ := calm.reconcile_turn named distinct
  have has' := has.agrees agrees.its
  constructor
  · intro found stat planned
    have became := calm'.fetch_of_plan has' stat (is ▸ planned)
    rw [← is] at became
    obtain ⟨passes, ⟨fetched, can⟩ | ⟨failed, cannot⟩⟩ := became
    · exact ⟨passes, Or.inl ⟨fetched ▸ books, can⟩⟩
    · exact ⟨passes, Or.inr ⟨failed ▸ books, cannot⟩⟩
  · intro found stat planned
    have ordinary : ∀ node, (x.reconcile Peer.shared before).1.mount.get? (.text r.name)
        = some node → node.isOrdinary = true := by
      rw [agrees.mine.entry]
      exact fun node => mine.isOrdinary
    have became := calm'.store_of_plan (agrees.named ▸ named) ordinary has' stat (is ▸ planned)
    rw [← is] at became
    obtain ⟨passes, stored | ⟨skipped | failed, why⟩⟩ := became
    · exact ⟨passes, Or.inl (stored ▸ books)⟩
    · exact ⟨passes, Or.inr ⟨Or.inl (skipped ▸ books), why⟩⟩
    · exact ⟨passes, Or.inr ⟨Or.inr (failed ▸ books), why⟩⟩

/-- **Planner and resolver agree on every pair of records.  So in a pass over a manifest that was
just made no planned transfer is refused as already synchronized or stale.**

A fetch is carried out unless the client's own machine refuses the file, and a store unless the file is
empty or another client has the lock on it. -/
theorem planned_transfers_pass :
    (∀ mine its : FileRecord,
      let fetch := resolve .fetch (some mine.version) its.version
      let store := resolve .store (some its.version) mine.version
      (plan (some mine) its = .fetch → fetch = .proceed ∧ store = .staleSource) ∧
      (plan (some mine) its = .store → store = .proceed ∧ fetch = .staleSource) ∧
      (plan (some mine) its = .skip ↔ fetch = .alreadySynced ∧ store = .alreadySynced) ∧
      (plan (some mine) its = .anomaly ↔ fetch = .proceed ∧ store = .proceed)) ∧
    ∀ (x : Site Shared) (manifest : List FileRecord), x.Calm → Frame.TextFits x.name →
      x.mount.Ordinary → x.world.mount.Ordinary → x.world.mount.enumerate = .ok manifest →
      ∀ before r after, manifest = before ++ r :: after →
        (x.reconcile Peer.shared before).1.Passes r (x.reconcile Peer.shared manifest).2 := by
  constructor
  · intro mine its
    have rows := agreed mine its
    dsimp only
    generalize plan (some mine) its = action,
      resolve .fetch (some mine.version) its.version = fetch,
      resolve .store (some its.version) mine.version = store at rows
    cases rows <;> decide
  · rintro x manifest calm named mine its made before r after rfl
    exact calm.passes named mine its made

/-- A client and a server with different copies of one file, of given times. -/
def facing (mine its : UnixTime) : Site Shared where
  client := ⟨.forTesting "" "" "bob", .holding [("letter", [1, 2, 3], mine)]⟩
  world := .start (.holding [("letter", [1, 2], its)]) ⟨0, 10⟩

theorem calm_facing (mine its : UnixTime) : (facing mine its).Calm where
  positive := (by decide : 0 < (UInt64.ofNat (ClientConfig.forTesting "" "" "bob").deadline).toNat)
  coming := fun _ mem => absurd mem List.not_mem_nil

/-- The older copy is fetched, and the newer one is stored. -/
theorem facing_passes :
    (∃ found its, (facing 4 6).localRecord its.name = .ok found ∧ plan found its = .fetch ∧
      (facing 4 6).world.mount.enumerate = .ok [its] ∧
      ((facing 4 6).reconcile Peer.shared [its]).2 = { Report.empty with fetched := ["letter"] } ∧
      (facing 4 6).Passes its ((facing 4 6).reconcile Peer.shared [its]).2) ∧
    ∃ found its, (facing 8 6).localRecord its.name = .ok found ∧ plan found its = .store ∧
      (facing 8 6).world.mount.enumerate = .ok [its] ∧
      ((facing 8 6).reconcile Peer.shared [its]).2 = { Report.empty with stored := ["letter"] } ∧
      (facing 8 6).Passes its ((facing 8 6).reconcile Peer.shared [its]).2 := by
  have named : Frame.TextFits "bob" := by decide +kernel
  let its : FileRecord := ⟨"letter", 2, fileChecksum [1, 2], 6, 6⟩
  have passes := fun mtime mine its' made =>
    planned_transfers_pass.2 (facing mtime 6) [its] (calm_facing mtime 6) named mine its' made []
      its [] rfl
  have older : (facing 4 6).world.mount.enumerate = .ok [its] := by decide +kernel
  have newer : (facing 8 6).world.mount.enumerate = .ok [its] := by decide +kernel
  exact ⟨⟨some ⟨"letter", 3, fileChecksum [1, 2, 3], 4, 4⟩, its, by decide +kernel,
      by decide +kernel, older, by decide +kernel,
      passes 4 (by decide +kernel) (by decide +kernel) older⟩,
    ⟨some ⟨"letter", 3, fileChecksum [1, 2, 3], 8, 8⟩, its, by decide +kernel,
      by decide +kernel, newer, by decide +kernel,
      passes 8 (by decide +kernel) (by decide +kernel) newer⟩⟩

end Site

end MountSync
