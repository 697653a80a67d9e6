/-
The same call on two endpoints.

A call that names a file looks at the entry of that name, at the directory, at the row of the file
and at the clock, and at nothing else.  So if two endpoints have these in common, and the clock says
the same of the deadline, the call goes the same way on both: step by step it is in the same phase,
and in the end it answers the same.  What it does to the row and to the entry is the same too, and
what it adds to the counters.

Only a store makes something that is not the same.  Its temporary file has a name and a number that
depend on what else there is, and a stored file says when it was written.
-/
import MountSync.Proofs.Endpoint.Confined
import MountSync.Proofs.Mount.Listing
import MountSync.Proofs.Traffic.OpenFile

namespace MountSync

/-! ### Counters

The counters are seen as one function, so that what a step adds to them is one function too, and
two endpoints can be compared by what has been added since they were found.
-/

/-- Tables with the same under every key have as many rows. -/
theorem Table.size_congr {κ α : Type} [DecidableEq κ] {t t' : Table κ α}
    (h : ∀ k, t'.get? k = t.get? k) : t'.size = t.size := by
  have distinct : t.keys.Nodup := t.distinct
  have distinct' : t'.keys.Nodup := t'.distinct
  have keys : t'.keys.Perm t.keys := by
    rw [List.perm_ext_iff_of_nodup distinct' distinct]
    intro k
    rw [mem_keys_iff, mem_keys_iff, h]
  simpa [Table.keys, Table.size] using keys.length_eq

/-- The counters of an endpoint, but for the number of rows. -/
inductive Counter
  | storesCompleted
  | storesRejected
  | fetchesCompleted
  | fetchesSkipped
  | deletesCompleted
  | bytesReceived
  | bytesSent
  | granted
  | denied
  | released
  | deleted
  | published
  | wakeups
  | timeouts
  | waiting
  deriving DecidableEq, Repr, Inhabited

namespace Endpoint

def tally (e : Endpoint) : Counter → Nat
  | .storesCompleted => e.stats.storesCompleted
  | .storesRejected => e.stats.storesRejected
  | .fetchesCompleted => e.stats.fetchesCompleted
  | .fetchesSkipped => e.stats.fetchesSkipped
  | .deletesCompleted => e.stats.deletesCompleted
  | .bytesReceived => e.stats.bytesReceived
  | .bytesSent => e.stats.bytesSent
  | .granted => e.locks.granted
  | .denied => e.locks.denied
  | .released => e.locks.released
  | .deleted => e.locks.deleted
  | .published => e.feed.published
  | .wakeups => e.feed.wakeups
  | .timeouts => e.feed.timeouts
  | .waiting => e.feed.receivers.size

variable {e e' : Endpoint}

theorem stats_eq_of_tally (h : ∀ k, e'.tally k = e.tally k) :
    e'.stats = e.stats ∧ e'.feed.stats = e.feed.stats :=
  ⟨(TransferStats.mk.injEq ..).mpr ⟨h .storesCompleted, h .storesRejected, h .fetchesCompleted,
      h .fetchesSkipped, h .deletesCompleted, h .bytesReceived, h .bytesSent⟩,
    (FeedStats.mk.injEq ..).mpr ⟨h .published, h .wakeups, h .timeouts, h .waiting⟩⟩

theorem lockStats_eq_of_tally (h : ∀ k, e'.tally k = e.tally k)
    (rows : ∀ file, e'.locks.rows.get? file = e.locks.rows.get? file) :
    e'.locks.stats = e.locks.stats :=
  (LockStats.mk.injEq ..).mpr
    ⟨h .granted, h .denied, h .released, h .deleted, Table.size_congr rows⟩

theorem tally_announce (e : Endpoint) (name : String) (kind : ChangeKind) (k : Counter) :
    (e.announce name kind).tally k = e.tally k + if k = .published then 1 else 0 := by
  cases k with
  | published => exact Array.size_push ..
  | _ => rfl

end Endpoint

/-- What a call for a lock adds to a counter. -/
def LockCall.adds (c : LockCall) (succeeded : Bool) (k : Counter) : Nat :=
  match c.action, succeeded with
  | .acquire, true => if k = .granted then 1 else 0
  | .acquire, false => if k = .denied then 1 else 0
  | .release, true | .dispose true, true => if k = .released then 1 else 0
  | .delete, true | .dispose false, true => if k = .deleted then 1 else 0
  | .release, false | .delete, false | .dispose _, false => 0

/-- A call for a lock counts its answer and nothing else. -/
theorem Endpoint.tally_perform (e : Endpoint) (c : LockCall) (k : Counter) :
    (e.withLocks (e.locks.perform c).1).tally k
      = e.tally k + c.adds (e.locks.perform c).2 k := by
  have acquired : ∀ file client, (e.withLocks (e.locks.acquire file client).1).tally k
      = e.tally k
        + LockCall.adds ⟨.acquire, file, client⟩ (e.locks.acquire file client).2 k := by
    intro file client
    unfold LockTable.acquire
    split
    · cases k <;> rfl
    · split <;> cases k <;> rfl
  have released : ∀ file client, (e.withLocks (e.locks.release file client).1).tally k
      = e.tally k
        + LockCall.adds ⟨.release, file, client⟩ (e.locks.release file client).2 k := by
    intro file client
    unfold LockTable.release
    split <;> cases k <;> rfl
  have deleted : ∀ file client, (e.withLocks (e.locks.delete file client).1).tally k
      = e.tally k + LockCall.adds ⟨.delete, file, client⟩ (e.locks.delete file client).2 k := by
    intro file client
    unfold LockTable.delete
    split <;> cases k <;> rfl
  obtain ⟨action, file, client⟩ := c
  cases action with
  | acquire => exact acquired file client
  | release => exact released file client
  | delete => exact deleted file client
  | dispose present =>
      cases present with
      | true =>
          refine (released file client).trans (congrArg (e.tally k + ·) ?_)
          show _ = LockCall.adds ⟨.dispose true, file, client⟩ (e.locks.release file client).2 k
          cases (e.locks.release file client).2 <;> rfl
      | false =>
          refine (deleted file client).trans (congrArg (e.tally k + ·) ?_)
          show _ = LockCall.adds ⟨.dispose false, file, client⟩ (e.locks.delete file client).2 k
          cases (e.locks.delete file client).2 <;> rfl

/-! ### What two endpoints have in common

The mounts need not be equal.  They have the same directory, the same under one name, and no link
there that could lead to where they differ.  Of the books, the row is the same now, and the counters
have the same added to them.
-/

/-- Two mounts that are the same to whoever looks for a name, which is not that of a link. -/
structure Mount.Sees (f : String) (m₁ m₂ : Mount) : Prop where
  place : m₂.place = m₁.place
  directory : m₂.tree.get? m₁.place = m₁.tree.get? m₁.place
  entry : m₂.get? (.text f) = m₁.get? (.text f)
  plain : ∀ node, m₁.get? (.text f) = some node → node.isLink = false

namespace Mount

variable {m₁ m₂ m₁' m₂' : Mount} {f : String}

namespace Sees

theorem enter (h : m₁.Sees f m₂) : m₂.enter = m₁.enter := enter_congr h.place h.directory

theorem locate (h : m₁.Sees f m₂) (accepted : accepts f = true) : m₂.locate f = m₁.locate f :=
  locate_congr h.place h.directory h.entry (canName_of_accepts accepted) h.plain

theorem statFile (h : m₁.Sees f m₂) : m₂.statFile f = m₁.statFile f :=
  statFile_congr h.place h.directory h.entry h.plain

theorem existsOr (h : m₁.Sees f m₂) (accepted : accepts f = true) (fallback : Bool) :
    Mount.existsOr fallback m₂ f = Mount.existsOr fallback m₁ f := by
  rw [Mount.existsOr, Mount.existsOr, tryExists, tryExists, h.locate accepted]

theorem same (h : m₁.Sees f m₂) (s₁ : m₁.SameAs m₁') (s₂ : m₂.SameAs m₂') : m₁'.Sees f m₂' where
  place := s₂.place.trans (h.place.trans s₁.place.symm)
  directory := by
    rw [s₂.nodes, s₁.place, s₁.nodes]
    exact h.directory
  entry := by
    rw [s₂.get?_eq, s₁.get?_eq]
    exact h.entry
  plain := by
    rw [s₁.get?_eq]
    exact h.plain

/-- The name is put to the same use in both, and for no link. -/
theorem puts (h : m₁.Sees f m₂) {entry : Option Node} (p₁ : m₁.Puts f entry m₁')
    (p₂ : m₂.Puts f entry m₂') (plain : ∀ node, entry = some node → node.isLink = false) :
    m₁'.Sees f m₂' where
  place := p₂.place.trans (h.place.trans p₁.place.symm)
  directory := by
    have apart := p₂.others m₁.place fun same =>
      m₂.placeOf_ne_place (.text f) (same.symm.trans h.place.symm)
    rw [p₁.place, apart, p₁.others _ fun same => m₁.placeOf_ne_place _ same.symm]
    exact h.directory
  entry := p₂.entry.trans p₁.entry.symm
  plain := by
    rw [p₁.entry]
    exact plain

/-- An entry can be removed in both mounts, or in neither for the same reason. -/
theorem removeFile (h : m₁.Sees f m₂) :
    (∃ fault, m₁.removeFile f = .error fault ∧ m₂.removeFile f = .error fault) ∨
      ∃ m₁' m₂', m₁.removeFile f = .ok m₁' ∧ m₂.removeFile f = .ok m₂' ∧ m₁'.Sees f m₂' := by
  cases removed : m₁.removeFile f with
  | error fault =>
      refine Or.inl ⟨fault, rfl, ?_⟩
      unfold Mount.removeFile absence at removed ⊢
      rw [h.entry, h.enter]
      split at removed <;> cases removed <;> rfl
  | ok m₁' =>
      obtain ⟨m₂', removed'⟩ : ∃ m₂', m₂.removeFile f = .ok m₂' := by
        unfold Mount.removeFile at removed ⊢
        rw [h.entry]
        split at removed
        · cases removed
        · cases removed
        · exact ⟨_, rfl⟩
      obtain ⟨-, p₁⟩ := puts_of_removeFile removed
      obtain ⟨-, p₂⟩ := puts_of_removeFile removed'
      exact Or.inr ⟨m₁', m₂', rfl, removed', h.puts p₁ p₂ nofun⟩

end Sees

end Mount

namespace Endpoint

/-- Two endpoints as a call has left them, which it found as `s₁` and `s₂`: the row of its file is
the same, and so is what was added to the counters. -/
structure Books (f : String) (s₁ s₂ e₁ e₂ : Endpoint) : Prop where
  row : e₂.locks.rows.get? f = e₁.locks.rows.get? f
  chunkSize₁ : e₁.chunkSize = s₁.chunkSize
  chunkSize₂ : e₂.chunkSize = s₂.chunkSize
  added : ∃ δ : Counter → Nat, ∀ k, e₁.tally k = s₁.tally k + δ k ∧ e₂.tally k = s₂.tally k + δ k

namespace Books

variable {f : String} {s₁ s₂ e₁ e₂ e₁' e₂' : Endpoint}

/-- The same has been added to the counters of both. -/
theorem add (h : Books f s₁ s₂ e₁ e₂) (row : e₂'.locks.rows.get? f = e₁'.locks.rows.get? f)
    (chunkSize : e₁'.chunkSize = e₁.chunkSize ∧ e₂'.chunkSize = e₂.chunkSize)
    (more : Counter → Nat)
    (tally : ∀ k, e₁'.tally k = e₁.tally k + more k ∧ e₂'.tally k = e₂.tally k + more k) :
    Books f s₁ s₂ e₁' e₂' where
  row := row
  chunkSize₁ := chunkSize.1.trans h.chunkSize₁
  chunkSize₂ := chunkSize.2.trans h.chunkSize₂
  added := by
    obtain ⟨δ, added⟩ := h.added
    refine ⟨fun k => δ k + more k, fun k => ?_⟩
    rw [(tally k).1, (tally k).2, (added k).1, (added k).2]
    exact ⟨Nat.add_assoc .., Nat.add_assoc ..⟩

theorem count (h : Books f s₁ s₂ e₁ e₂) {change : TransferStats → TransferStats}
    (more : Counter → Nat) (tally : ∀ (e : Endpoint) k, (e.count change).tally k
      = e.tally k + more k) : Books f s₁ s₂ (e₁.count change) (e₂.count change) :=
  h.add h.row ⟨rfl, rfl⟩ more fun k => ⟨tally e₁ k, tally e₂ k⟩

theorem withMount (h : Books f s₁ s₂ e₁ e₂) (m₁ m₂ : Mount) :
    Books f s₁ s₂ (e₁.withMount m₁) (e₂.withMount m₂) :=
  ⟨h.row, h.chunkSize₁, h.chunkSize₂, h.added⟩

theorem announce (h : Books f s₁ s₂ e₁ e₂) (name : String) (kind : ChangeKind) :
    Books f s₁ s₂ (e₁.announce name kind) (e₂.announce name kind) :=
  h.add h.row ⟨rfl, rfl⟩ _ fun k => ⟨e₁.tally_announce name kind k, e₂.tally_announce name kind k⟩

theorem ownerOf (h : Books f s₁ s₂ e₁ e₂) : e₂.locks.ownerOf f = e₁.locks.ownerOf f :=
  congrArg Option.join h.row

theorem isOwner (h : Books f s₁ s₂ e₁ e₂) (client : ClientId) :
    e₂.locks.isOwner f client = e₁.locks.isOwner f client := by
  rw [LockTable.isOwner, LockTable.isOwner, h.ownerOf]

/-- A call for the lock has the same answer on both, and leaves the same row. -/
theorem perform (h : Books f s₁ s₂ e₁ e₂) {c : LockCall} (file : c.file = f) :
    (e₂.locks.perform c).2 = (e₁.locks.perform c).2 ∧
      Books f s₁ s₂ (e₁.withLocks (e₁.locks.perform c).1)
        (e₂.withLocks (e₂.locks.perform c).1) := by
  have answer : (e₂.locks.perform c).2 = (e₁.locks.perform c).2 :=
    LockTable.answer_congr (file ▸ h.row)
  refine ⟨answer, h.add ?_ ⟨rfl, rfl⟩ (c.adds (e₁.locks.perform c).2) fun k =>
    ⟨e₁.tally_perform c k, answer ▸ e₂.tally_perform c k⟩⟩
  show (e₂.locks.perform c).1.rows.get? f = (e₁.locks.perform c).1.rows.get? f
  rw [LockTable.get?_perform, LockTable.get?_perform, answer, h.row]

/-- If one of the tables answers a call, the other one gives the same answer. -/
theorem answered (h : Books f s₁ s₂ e₁ e₂) {c : LockCall} (file : c.file = f) {t₁ : LockTable}
    {answer : Bool} (first : e₁.locks.perform c = (t₁, answer)) :
    ∃ t₂, e₂.locks.perform c = (t₂, answer) ∧
      Books f s₁ s₂ (e₁.withLocks t₁) (e₂.withLocks t₂) := by
  obtain ⟨same, books⟩ := h.perform file
  rw [first] at same books
  exact ⟨(e₂.locks.perform c).1, Prod.ext rfl same, books⟩

theorem disposeLock (h : Books f s₁ s₂ e₁ e₂) (client : ClientId) (present : Bool) :
    Books f s₁ s₂ (e₁.disposeLock f client present) (e₂.disposeLock f client present) :=
  (h.perform (c := ⟨.dispose present, f, client⟩) rfl).2

end Books

/-- The same to a call on a file. -/
structure Twin (f : String) (s₁ s₂ e₁ e₂ : Endpoint) : Prop where
  sees : e₁.mount.Sees f e₂.mount
  books : Books f s₁ s₂ e₁ e₂

namespace Twin

variable {f : String} {s₁ s₂ e₁ e₂ : Endpoint}

theorem count (h : Twin f s₁ s₂ e₁ e₂) {change : TransferStats → TransferStats}
    (more : Counter → Nat)
    (tally : ∀ (e : Endpoint) k, (e.count change).tally k = e.tally k + more k) :
    Twin f s₁ s₂ (e₁.count change) (e₂.count change) :=
  ⟨h.sees, h.books.count more tally⟩

theorem disposeLock (h : Twin f s₁ s₂ e₁ e₂) (client : ClientId) (present : Bool) :
    Twin f s₁ s₂ (e₁.disposeLock f client present) (e₂.disposeLock f client present) :=
  ⟨h.sees, h.books.disposeLock client present⟩

theorem fileExists (h : Twin f s₁ s₂ e₁ e₂) (accepted : Mount.accepts f = true) :
    e₂.fileExists f = e₁.fileExists f := h.sees.existsOr accepted false

theorem stat (h : Twin f s₁ s₂ e₁ e₂) {d₁ d₂ : Deadline} {now₁ now₂ : Nat}
    (check : d₂.isExpired now₂ = d₁.isExpired now₁) : e₂.stat f d₂ now₂ = e₁.stat f d₁ now₁ := by
  rw [Endpoint.stat, Endpoint.stat, check, h.sees.statFile]

end Twin

end Endpoint

/-! ### Calls that move no content

Each step reads what the two endpoints have in common, so a case split on the phase takes both
through the same branch.
-/

section

variable {f : String} {s₁ s₂ e₁ e₂ : Endpoint} {client : ClientId} {d₁ d₂ : Deadline}

/-- Whoever asks for a lock is told the same. -/
theorem Endpoint.Twin.requestLock (h : Twin f s₁ s₂ e₁ e₂) {now₁ now₂ : Nat}
    (check : d₂.isExpired now₂ = d₁.isExpired now₁) :
    (e₂.requestLock f client d₂ now₂).2 = (e₁.requestLock f client d₁ now₁).2 ∧
      Twin f s₁ s₂ (e₁.requestLock f client d₁ now₁).1 (e₂.requestLock f client d₂ now₂).1 := by
  have asked : ∀ e : Endpoint, e.requestLock f client d₁ now₁ = e.requestLock f client d₂ now₂ :=
    fun e => by rw [Endpoint.requestLock, Endpoint.requestLock, check]
  rw [← asked]
  unfold Endpoint.requestLock
  split
  · exact ⟨rfl, h⟩
  · split
    · exact ⟨rfl, h⟩
    · cases first : e₁.locks.acquire f client with
      | mk t₁ granted =>
          obtain ⟨t₂, second, books⟩ := h.books.answered (c := ⟨.acquire, f, client⟩) rfl first
          rw [show e₂.locks.acquire f client = (t₂, granted) from second]
          cases granted with
          | true => exact ⟨rfl, h.sees, books⟩
          | false =>
              have owner : t₂.ownerOf f = t₁.ownerOf f := books.ownerOf
              dsimp only
              rw [owner]
              exact ⟨rfl, h.sees, books⟩

/-- A delete in the same phase on both endpoints. -/
inductive DeleteCall.Twins (f : String) (client : ClientId) (d₁ d₂ : Deadline)
    (s₁ s₂ : Endpoint) : Endpoint × DeleteCall → Endpoint × DeleteCall → Prop
  | intro {e₁ e₂ : Endpoint} {phase : DeletePhase} : Endpoint.Twin f s₁ s₂ e₁ e₂ →
      Twins f client d₁ d₂ s₁ s₂ (e₁, ⟨f, client, d₁, phase⟩) (e₂, ⟨f, client, d₂, phase⟩)

/-- The two deletes stay in the same phase. -/
theorem DeleteCall.Twins.step (accepted : Mount.accepts f = true)
    {r₁ r₂ : Endpoint × DeleteCall} (h : Twins f client d₁ d₂ s₁ s₂ r₁ r₂) {now₁ now₂ : Moment}
    (check : d₂.isExpired now₂.instant = d₁.isExpired now₁.instant) :
    Twins f client d₁ d₂ s₁ s₂ (r₁.2.step r₁.1 now₁) (r₂.2.step r₂.1 now₂) := by
  obtain @⟨e₁, e₂, phase, twin⟩ := h
  dsimp only [DeleteCall.step]
  -- Both calls find the same under the name and the same row for it, so from each phase they take
  -- the same turn.
  cases phase with
  | arrived =>
      dsimp only [checkCaller]
      rw [show Mount.checkName f = .ok () from if_pos accepted, twin.books.isOwner]
      dsimp only
      split <;> exact .intro twin
  | owner =>
      dsimp only
      rw [twin.fileExists accepted, check]
      split
      · exact .intro twin
      · split <;> exact .intro twin
  | present =>
      dsimp only [remove]
      rcases twin.sees.removeFile with ⟨fault, kept, kept'⟩ | ⟨m₁, m₂, removed, removed', sees⟩
      · rw [kept, kept']
        exact .intro twin
      · rw [removed, removed']
        exact .intro ⟨sees, twin.books.withMount m₁ m₂⟩
  | absent => exact .intro (twin.disposeLock client false)
  | removed =>
      dsimp only [conclude]
      cases first : e₁.locks.delete f client with
      | mk t₁ done =>
          obtain ⟨t₂, second, books⟩ :=
            twin.books.answered (c := ⟨.delete, f, client⟩) rfl first
          rw [show e₂.locks.delete f client = (t₂, done) from second]
          cases done with
          | false => exact .intro twin
          | true =>
              have counted : Endpoint.Books f s₁ s₂ ((e₁.withLocks t₁).count countCompleted)
                  ((e₂.withLocks t₂).count countCompleted) :=
                books.count (fun | .deletesCompleted => 1 | _ => 0)
                  fun e k => by cases k <;> rfl
              exact .intro ⟨twin.sees, counted.announce f .deleted⟩
  | refused fault =>
      dsimp only
      rw [twin.sees.existsOr accepted]
      exact .intro twin
  | disposing failure present => exact .intro (twin.disposeLock client present)
  | finished result => exact .intro twin

inductive ProbeCall.Twins (f : String) (client : ClientId) (sum : UInt32) (d₁ d₂ : Deadline)
    (s₁ s₂ : Endpoint) : Endpoint × ProbeCall → Endpoint × ProbeCall → Prop
  | intro {e₁ e₂ : Endpoint} {phase : ProbePhase} : Endpoint.Twin f s₁ s₂ e₁ e₂ →
      Twins f client sum d₁ d₂ s₁ s₂ (e₁, ⟨f, client, sum, d₁, phase⟩)
        (e₂, ⟨f, client, sum, d₂, phase⟩)

theorem ProbeCall.Twins.step {sum : UInt32} {r₁ r₂ : Endpoint × ProbeCall}
    (h : Twins f client sum d₁ d₂ s₁ s₂ r₁ r₂) {now₁ now₂ : Moment}
    (check : d₂.isExpired now₂.instant = d₁.isExpired now₁.instant) :
    Twins f client sum d₁ d₂ s₁ s₂ (r₁.2.step r₁.1 now₁) (r₂.2.step r₂.1 now₂) := by
  obtain @⟨e₁, e₂, phase, twin⟩ := h
  dsimp only [ProbeCall.step]
  cases phase with
  | arrived =>
      dsimp only
      rw [twin.stat check]
      split
      · exact .intro twin
      · split <;> exact .intro twin
  | same =>
      dsimp only
      rw [twin.books.isOwner]
      split <;> exact .intro twin
  | owner =>
      exact .intro ⟨twin.sees, (twin.books.perform (c := ⟨.release, f, client⟩) rfl).2⟩
  | finished result => exact .intro twin

inductive ExpiryCall.Twins (f : String) (client : ClientId) (s₁ s₂ : Endpoint) :
    Endpoint × ExpiryCall → Endpoint × ExpiryCall → Prop
  | intro {e₁ e₂ : Endpoint} {phase : ExpiryPhase} : Endpoint.Twin f s₁ s₂ e₁ e₂ →
      Twins f client s₁ s₂ (e₁, ⟨f, client, phase⟩) (e₂, ⟨f, client, phase⟩)

theorem ExpiryCall.Twins.step (accepted : Mount.accepts f = true)
    {r₁ r₂ : Endpoint × ExpiryCall} (h : Twins f client s₁ s₂ r₁ r₂) :
    Twins f client s₁ s₂ (r₁.2.step r₁.1) (r₂.2.step r₂.1) := by
  obtain @⟨e₁, e₂, phase, twin⟩ := h
  dsimp only [ExpiryCall.step]
  cases phase with
  | arrived =>
      dsimp only
      rw [twin.books.isOwner]
      split <;> exact .intro twin
  | owner =>
      dsimp only
      rw [twin.fileExists accepted]
      exact .intro twin
  | disposing present => exact .intro (twin.disposeLock client present)
  | finished => exact .intro twin

end

/-! ### Fetches

An open file is followed by its place, which may by now have no name.  The two fetches also read
alike there, and a fetch changes nothing that the other one reads.
-/

namespace FetchCall

/-- A fetch in the same phase on both endpoints, which finds the same where it has its file open. -/
inductive Twins (f : String) (mine : Option FileVersion) (d₁ d₂ : Deadline) (s₁ s₂ : Endpoint) :
    Endpoint × FetchCall → Endpoint × FetchCall → Prop
  | intro {e₁ e₂ : Endpoint} {phase : FetchPhase} : Endpoint.Twin f s₁ s₂ e₁ e₂ →
      (∀ s, phase.sending? = some s →
        e₂.mount.tree.get? s.place = e₁.mount.tree.get? s.place) →
      Twins f mine d₁ d₂ s₁ s₂ (e₁, ⟨f, mine, d₁, phase⟩) (e₂, ⟨f, mine, d₂, phase⟩)

namespace Twins

variable {f : String} {mine : Option FileVersion} {d₁ d₂ : Deadline} {s₁ s₂ : Endpoint}
  {r₁ r₂ : Endpoint × FetchCall} {now₁ now₂ : Moment}

theorem close {e₁ e₂ : Endpoint} {phase : FetchPhase} (twin : Endpoint.Twin f s₁ s₂ e₁ e₂)
    (s : Sending) :
    Twins f mine d₁ d₂ s₁ s₂ ((⟨f, mine, d₁, phase⟩ : FetchCall).close e₁ s)
      ((⟨f, mine, d₂, phase⟩ : FetchCall).close e₂ s) := by
  unfold FetchCall.close
  split
  · exact .intro twin nofun
  · split
    · exact .intro twin nofun
    · exact .intro (twin.count
        (fun | .fetchesCompleted => 1 | .bytesSent => s.sent | _ => 0)
        fun e k => by cases k <;> rfl) nofun

/-- Both find the same record, open what is the same, and read the same pieces. -/
theorem step (accepted : Mount.accepts f = true) (chunkSize : s₂.chunkSize = s₁.chunkSize)
    (h : Twins f mine d₁ d₂ s₁ s₂ r₁ r₂)
    (check : d₂.isExpired now₂.instant = d₁.isExpired now₁.instant) (limit : Nat) :
    Twins f mine d₁ d₂ s₁ s₂ (r₁.2.step r₁.1 now₁ limit) (r₂.2.step r₂.1 now₂ limit) := by
  obtain @⟨e₁, e₂, phase, twin, file⟩ := h
  dsimp only [FetchCall.step]
  cases phase with
  | arrived =>
      dsimp only [lookUp]
      rw [twin.sees.statFile]
      split <;> exact .intro twin nofun
  | found record =>
      have skipped : Endpoint.Twin f s₁ s₂ (e₁.count countSkipped) (e₂.count countSkipped) :=
        twin.count (fun | .fetchesSkipped => 1 | _ => 0) fun e k => by cases k <;> rfl
      dsimp only [decideCopy]
      rw [check]
      split
      · exact .intro twin nofun
      · split
        · exact .intro twin nofun
        · exact .intro skipped nofun
        · exact .intro skipped nofun
  | opening record =>
      dsimp only [openFile]
      have located := twin.sees.locate accepted
      rw [located]
      split
      · rename_i place file opened
        refine .intro twin fun s same => ?_
        cases same
        show e₂.mount.tree.get? place = e₁.mount.tree.get? place
        rw [Mount.get?_of_locate opened, Mount.get?_of_locate (located.trans opened)]
      all_goals exact .intro twin nofun
  | reading s =>
      have same : e₂.chunkSize = e₁.chunkSize := by
        rw [twin.books.chunkSize₁, twin.books.chunkSize₂, chunkSize]
      have refreshed : s.refresh e₂.mount = s.refresh e₁.mount := by
        rw [Sending.refresh, Sending.refresh, file s rfl]
      have place : (s.refresh e₁.mount).place = s.place := by
        unfold Sending.refresh
        split
        · split <;> rfl
        · rfl
      dsimp only [FetchCall.read]
      rw [check, same, refreshed]
      split
      · exact .intro twin nofun
      · split
        · exact close twin _
        · refine .intro twin fun s' next => ?_
          cases next
          show e₂.mount.tree.get? (s.refresh e₁.mount).place
            = e₁.mount.tree.get? (s.refresh e₁.mount).place
          rw [place, file s rfl]
  | offering message next => exact .intro twin file
  | finished result => exact .intro twin file

theorem handOver (h : Twins f mine d₁ d₂ s₁ s₂ r₁ r₂) (outcome : Handover) :
    Twins f mine d₁ d₂ s₁ s₂ (r₁.2.handOver r₁.1 outcome) (r₂.2.handOver r₂.1 outcome) := by
  obtain @⟨e₁, e₂, phase, twin, file⟩ := h
  dsimp only [FetchCall.handOver]
  cases phase with
  | offering message next =>
      cases outcome with
      | readerGone => exact .intro twin nofun
      | late => exact .intro twin nofun
      | delivered =>
          cases next with
          | refuse failure => exact .intro twin nofun
          | goOn s => exact .intro twin file
          | conclude sent =>
              exact .intro (twin.count
                (fun | .fetchesCompleted => 1 | .bytesSent => sent | _ => 0)
                fun e k => by cases k <;> rfl) nofun
  | _ => exact .intro twin file

/-- Both go on alike, and the same messages are delivered. -/
theorem run (accepted : Mount.accepts f = true) (chunkSize : s₂.chunkSize = s₁.chunkSize)
    (check : d₂.isExpired now₂.instant = d₁.isExpired now₁.instant) (limits : Nat → Nat)
    (reader : Nat → Handover) (fuel sent : Nat) (h : Twins f mine d₁ d₂ s₁ s₂ r₁ r₂) :
    Twins f mine d₁ d₂ s₁ s₂
        ((FetchCall.run now₁ limits reader fuel sent r₁.1 r₁.2).map id Prod.fst)
        ((FetchCall.run now₂ limits reader fuel sent r₂.1 r₂.2).map id Prod.fst) ∧
      (FetchCall.run now₂ limits reader fuel sent r₂.1 r₂.2).2.2
        = (FetchCall.run now₁ limits reader fuel sent r₁.1 r₁.2).2.2 := by
  -- Which of the two a round is, a step or a message, is decided by the phase, which is the same.
  induction fuel generalizing sent r₁ r₂ with
  | zero => exact ⟨h, rfl⟩
  | succ fuel ih =>
      have stepped := ih sent (h.step accepted chunkSize check (limits sent))
      have handed := ih (sent + 1) (h.handOver (reader sent))
      obtain @⟨e₁, e₂, phase, twin, file⟩ := h
      cases phase with
      | finished result => exact ⟨.intro twin file, rfl⟩
      | offering message next =>
          obtain ⟨twins, messages⟩ := handed
          refine ⟨twins, ?_⟩
          simp only [FetchCall.run]
          rw [messages]
      | _ => exact stepped

end Twins

end FetchCall

/-! ### Whole calls

The steps are put together in the order of the definitions.  The calls may come at different times:
what matters of each time is whether the deadline has passed.
-/

/-- Two calls to which the clock says the same of their deadlines. -/
structure Schedule.Alike (d₁ : Deadline) (t₁ : Schedule) (d₂ : Deadline) (t₂ : Schedule) :
    Prop where
  arrival : d₂.isExpired t₂.arrival.instant = d₁.isExpired t₁.arrival.instant
  decision : d₂.isExpired t₂.decision.instant = d₁.isExpired t₁.decision.instant
  transfer : d₂.isExpired t₂.transfer.instant = d₁.isExpired t₁.transfer.instant

namespace Endpoint.Twin

variable {f : String} {s₁ s₂ e₁ e₂ : Endpoint} {d₁ d₂ : Deadline} {t₁ t₂ : Schedule}

theorem delete (h : Twin f s₁ s₂ e₁ e₂) (accepted : Mount.accepts f = true)
    (alike : Schedule.Alike d₁ t₁ d₂ t₂) (client : ClientId) :
    (e₂.delete f client d₂ t₂).2 = (e₁.delete f client d₁ t₁).2 ∧
      Twin f s₁ s₂ (e₁.delete f client d₁ t₁).1 (e₂.delete f client d₂ t₂).1 := by
  have told : ∀ {r₁ r₂}, DeleteCall.Twins f client d₁ d₂ s₁ s₂ r₁ r₂ →
      r₂.2.result?.getD (.error .deadlineExceeded)
          = r₁.2.result?.getD (.error .deadlineExceeded) ∧ Twin f s₁ s₂ r₁.1 r₂.1 := by
    rintro _ _ ⟨twin⟩
    exact ⟨rfl, twin⟩
  have arrived : DeleteCall.Twins f client d₁ d₂ s₁ s₂ (e₁, .begin f client d₁)
      (e₂, .begin f client d₂) := .intro h
  have looked := (arrived.step accepted alike.arrival).step accepted alike.decision
  have removed := (looked.step accepted alike.transfer).step accepted alike.transfer
  exact told (removed.step accepted alike.transfer)

theorem probe (h : Twin f s₁ s₂ e₁ e₂) (alike : Schedule.Alike d₁ t₁ d₂ t₂) (client : ClientId)
    (sum : UInt32) :
    (e₂.probe f client sum d₂ t₂.arrival).2 = (e₁.probe f client sum d₁ t₁.arrival).2 ∧
      Twin f s₁ s₂ (e₁.probe f client sum d₁ t₁.arrival).1
        (e₂.probe f client sum d₂ t₂.arrival).1 := by
  have told : ∀ {r₁ r₂}, ProbeCall.Twins f client sum d₁ d₂ s₁ s₂ r₁ r₂ →
      r₂.2.result?.getD (.error .deadlineExceeded)
          = r₁.2.result?.getD (.error .deadlineExceeded) ∧ Twin f s₁ s₂ r₁.1 r₂.1 := by
    rintro _ _ ⟨twin⟩
    exact ⟨rfl, twin⟩
  have arrived : ProbeCall.Twins f client sum d₁ d₂ s₁ s₂ (e₁, .begin f client sum d₁)
      (e₂, .begin f client sum d₂) := .intro h
  exact told (((arrived.step alike.arrival).step alike.arrival).step alike.arrival)

theorem abandonExpired (h : Twin f s₁ s₂ e₁ e₂) (accepted : Mount.accepts f = true)
    (client : ClientId) :
    Twin f s₁ s₂ (e₁.abandonExpired f client) (e₂.abandonExpired f client) := by
  have told : ∀ {r₁ r₂}, ExpiryCall.Twins f client s₁ s₂ r₁ r₂ → Twin f s₁ s₂ r₁.1 r₂.1 := by
    rintro _ _ ⟨twin⟩
    exact twin
  have arrived : ExpiryCall.Twins f client s₁ s₂ (e₁, .begin f client) (e₂, .begin f client) :=
    .intro h
  exact told (((arrived.step accepted).step accepted).step accepted)

theorem fetch (h : Twin f s₁ s₂ e₁ e₂) (accepted : Mount.accepts f = true)
    (chunkSize : s₂.chunkSize = s₁.chunkSize) (alike : Schedule.Alike d₁ t₁ d₂ t₂)
    (mine : Option FileVersion) (limits : Nat → Nat) (reader : Nat → Handover) :
    (e₂.fetch f mine d₂ t₂ limits reader).2 = (e₁.fetch f mine d₁ t₁ limits reader).2 ∧
      Twin f s₁ s₂ (e₁.fetch f mine d₁ t₁ limits reader).1
        (e₂.fetch f mine d₂ t₂ limits reader).1 := by
  have finished : ∀ {r₁ r₂}, FetchCall.Twins f mine d₁ d₂ s₁ s₂ r₁ r₂ →
      FetchCall.Twins f mine d₁ d₂ s₁ s₂
          ((r₁.2.finish r₁.1 t₁.transfer limits reader).map id Prod.fst)
          ((r₂.2.finish r₂.1 t₂.transfer limits reader).map id Prod.fst) ∧
        (r₂.2.finish r₂.1 t₂.transfer limits reader).2.2
          = (r₁.2.finish r₁.1 t₁.transfer limits reader).2.2 := by
    -- Both calls are in the same phase, so they are given the same fuel.
    rintro _ _ ⟨twin, file⟩
    exact (FetchCall.Twins.intro twin file).run accepted chunkSize alike.transfer limits reader _ 0
  have told : ∀ {r₁ r₂ : Endpoint × FetchCall × List FetchChunk},
      FetchCall.Twins f mine d₁ d₂ s₁ s₂ (r₁.map id Prod.fst) (r₂.map id Prod.fst) ∧
        r₂.2.2 = r₁.2.2 →
      (r₂.2.1.result?.getD (.error .deadlineExceeded), r₂.2.2)
          = (r₁.2.1.result?.getD (.error .deadlineExceeded), r₁.2.2) ∧
        Twin f s₁ s₂ r₁.1 r₂.1 := by
    rintro ⟨_, _, messages⟩ ⟨_, _, _⟩ ⟨⟨twin, -⟩, rfl⟩
    exact ⟨rfl, twin⟩
  have arrived : FetchCall.Twins f mine d₁ d₂ s₁ s₂ (e₁, .begin f mine d₁)
      (e₂, .begin f mine d₂) := .intro h nofun
  have found := (arrived.step accepted chunkSize alike.arrival (limits 0)).step accepted chunkSize
    alike.decision (limits 0)
  have entered : FetchCall.Twins f mine d₁ d₂ s₁ s₂
      ((FetchCall.begin f mine d₁).enter e₁ t₁ (limits 0))
      ((FetchCall.begin f mine d₂).enter e₂ t₂ (limits 0)) :=
    (found.step accepted chunkSize alike.transfer (limits 0)).step accepted chunkSize
      alike.transfer (limits 0)
  exact told (finished entered)

end Endpoint.Twin

end MountSync
