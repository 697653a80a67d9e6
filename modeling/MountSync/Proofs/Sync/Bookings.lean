/-
What a report tells of a pass.

Each entry of a list has its turn once, and what becomes of it is booked once: so a report is the
list again, sorted by what became of the entries.  This needs nothing of the calls that are made on
the way.  They may answer as they like, and another time differently; here they are taken as they
come, and those of a client with some server are one way to answer.

What an entry is booked as is a matter of one call at most: a call that succeeds is booked as what
was done, one that fails in the normal course of things passes the entry over, and every other
failure is one of the entry.
-/
import MountSync.Proofs.Cluster.Round

namespace MountSync

/-- Failures that pass an entry over: somebody else holds the lock, the copies are the same, the
other one is newer, or there is no file. -/
def Failure.PassesOver (f : Failure) : Prop :=
  f.kind = .alreadyExists ∨ f.kind = .resourceExhausted ∨ f.kind = .cancelled ∨ f.kind = .notFound

theorem Failure.passesOver_iff (f : Failure) :
    f.PassesOver ↔ (f.isExpected || f.kind = .notFound) = true := by
  unfold PassesOver isExpected
  cases f.kind <;> simp

/-- What a call is booked as, by what comes of it. -/
inductive Booking.Of {α : Type} (done : Booking) : Except Failure α → Booking → Prop
  | done (a : α) : Of done (.ok a) done
  | passed {f : Failure} : f.PassesOver → Of done (.error f) .skipped
  | failed {f : Failure} : ¬ f.PassesOver → Of done (.error f) .failed

theorem Booking.of_iff {α : Type} {done b : Booking} {result : Except Failure α} :
    Booking.Of done result b ↔ Booking.ofResult done result = b := by
  constructor
  · intro of
    cases of with
    | done a => rfl
    | passed passes => simp [ofResult, Failure.passesOver_iff _ |>.1 passes]
    | failed serious => rw [ofResult, if_neg (mt (Failure.passesOver_iff _).2 serious)]
  · rintro rfl
    cases result with
    | ok a => exact .done a
    | error f =>
        rw [ofResult]
        by_cases passes : f.PassesOver
        · rw [if_pos (f.passesOver_iff.1 passes)]
          exact .passed passes
        · rw [if_neg (mt f.passesOver_iff.2 passes)]
          exact .failed passes

/-- A call is booked as what it did, or as passed over, or as a failure. -/
theorem Booking.Of.among {α : Type} {done b : Booking} {result : Except Failure α}
    (of : Booking.Of done result b) : b = done ∨ b = .skipped ∨ b = .failed := by
  cases of with
  | done _ => exact .inl rfl
  | passed _ => exact .inr (.inl rfl)
  | failed _ => exact .inr (.inr rfl)

/-! ### Reports -/

namespace Report

/-- All that is booked, whatever became of it. -/
def entries (r : Report) : List String :=
  r.fetched ++ r.stored ++ r.deleted ++ r.skipped ++ r.anomalies ++ r.failed

/-- A report has each entry of a list once, under what became of it. -/
structure Accounts (r : Report) (names : List String) (bookings : List Booking) : Prop where
  /-- One thing became of each entry. -/
  length : bookings.length = names.length
  /-- The entries of which the same became are under it, and no others. -/
  under : ∀ b, r.under b = ((names.zip bookings).filter fun e => e.2 = b).map Prod.fst
  ordered : ∀ b, (r.under b).Sublist names
  complete : r.entries.Perm names
  quiet : r.isQuiet = true ↔ ∀ b ∈ bookings, b = .skipped

variable {r : Report} {names : List String} {bookings : List Booking}

/-- Sorting entries by what became of them neither adds nor loses any. -/
theorem perm_sorted (es : List (String × Booking)) :
    let sorted (b : Booking) := es.filter fun e => e.2 = b
    (sorted .fetched ++ sorted .stored ++ sorted .deleted ++ sorted .skipped ++ sorted .anomaly
      ++ sorted .failed).Perm es := by
  intro sorted
  rw [List.perm_iff_count]
  rintro ⟨name, b⟩
  have count (b' : Booking) :
      (sorted b').count (name, b) = if b = b' then es.count (name, b) else 0 := by
    by_cases same : b = b'
    · rw [if_pos same]
      exact List.count_filter (by simp [same])
    · rw [if_neg same, List.count_eq_zero]
      intro mem
      exact same (by simpa using (List.mem_filter.1 mem).2)
  simp only [List.count_append, count]
  cases b <;> simp

/-- Nothing is under what became of no entry. -/
theorem under_eq_nil_iff (length : bookings.length = names.length)
    (under : ∀ b, r.under b = ((names.zip bookings).filter fun e => e.2 = b).map Prod.fst)
    (b : Booking) : r.under b = [] ↔ b ∉ bookings := by
  have second : (names.zip bookings).map Prod.snd = bookings := List.map_snd_zip (by omega)
  rw [under, List.map_eq_nil_iff, List.filter_eq_nil_iff]
  constructor
  · intro none mem
    rw [← second] at mem
    obtain ⟨e, there, rfl⟩ := List.mem_map.1 mem
    exact none e there (decide_eq_true rfl)
  · intro absent e there same
    refine absent (second ▸ List.mem_map.2 ⟨e, there, ?_⟩)
    simpa using same

/-- To know which entries are under what is to know a report. -/
theorem accounts_of_under (length : bookings.length = names.length)
    (under : ∀ b, r.under b = ((names.zip bookings).filter fun e => e.2 = b).map Prod.fst) :
    r.Accounts names bookings where
  length := length
  under := under
  ordered := by
    intro b
    have first : (names.zip bookings).map Prod.fst = names := List.map_fst_zip (by omega)
    rw [under]
    conv_rhs => rw [← first]
    exact List.filter_sublist.map Prod.fst
  complete := by
    have first : (names.zip bookings).map Prod.fst = names := List.map_fst_zip (by omega)
    have sorted := (perm_sorted (names.zip bookings)).map Prod.fst
    simp only [List.map_append, ← under, first] at sorted
    exact sorted
  quiet := by
    have none (b : Booking) : r.under b = [] ↔ b ∉ bookings := under_eq_nil_iff length under b
    have quiet : r.isQuiet = true ↔ r.under .fetched = [] ∧ r.under .stored = [] ∧
        r.under .deleted = [] ∧ r.under .anomaly = [] ∧ r.under .failed = [] := r.isQuiet_iff
    simp only [quiet, none]
    constructor
    · rintro ⟨_, _, _, _, _⟩ b mem
      cases b <;> first | rfl | contradiction
    · intro all
      refine ⟨?_, ?_, ?_, ?_, ?_⟩ <;> exact fun mem => absurd (all _ mem) nofun

end Report

namespace Site

variable {σ α : Type}

/-! ### What becomes of the entries

The bookings are a list as long as the list of the entries, and the report is made from the two.
-/

section

variable (entry : Site σ → α → Site σ × Booking) (nameOf : α → String)

/-- What becomes of the entries of a list, one after another. -/
def bookings : Site σ → List α → List Booking
  | _, [] => []
  | x, a :: rest => (entry x a).2 :: bookings (entry x a).1 rest

theorem length_bookings (x : Site σ) (list : List α) :
    (bookings entry x list).length = list.length := by
  induction list generalizing x with
  | nil => rfl
  | cons a rest ih => simp [bookings, ih]

theorem bookings_append (x : Site σ) (report : Report) (before after : List α) :
    bookings entry x (before ++ after)
      = bookings entry x before
        ++ bookings entry (through entry nameOf x report before).1 after := by
  induction before generalizing x report with
  | nil => rfl
  | cons a rest ih =>
    rw [List.cons_append, bookings, bookings, through, List.cons_append]
    rw [ih (entry x a).1 (report.book (nameOf a) (entry x a).2)]

/-- What becomes of an entry when its turn comes. -/
theorem getElem?_bookings (x : Site σ) (list : List α) (i : Fin list.length) :
    (bookings entry x list)[i.val]?
      = some (entry (through entry nameOf x .empty (list.take i)).1 (list.get i)).2 := by
  have split : bookings entry x list = bookings entry x (list.take i)
      ++ bookings entry (through entry nameOf x .empty (list.take i)).1
        (list.get i :: list.drop (i + 1)) := by
    rw [← bookings_append entry nameOf x .empty]
    simp
  have length : (bookings entry x (list.take i)).length = i := by
    rw [length_bookings, List.length_take]
    omega
  rw [split, List.getElem?_append_right (by omega), length]
  simp [bookings]

/-- Each entry goes under what became of it, behind those that are there. -/
theorem under_through (x : Site σ) (report : Report) (list : List α) (b : Booking) :
    (through entry nameOf x report list).2.under b
      = report.under b
        ++ (((list.map nameOf).zip (bookings entry x list)).filter fun e => e.2 = b).map Prod.fst := by
  induction list generalizing x report with
  | nil => simp [through, bookings]
  | cons a rest ih =>
    rw [through, ih]
    by_cases same : (entry x a).2 = b
    · simp [bookings, same, Report.under_book_self]
    · simp [bookings, same, Report.under_book_ne _ _ (Ne.symm same)]

/-- **A report accounts for the list that was gone through, whatever becomes of its entries.** -/
theorem accounts_through (x : Site σ) (list : List α) :
    (through entry nameOf x .empty list).2.Accounts (list.map nameOf) (bookings entry x list) := by
  refine Report.accounts_of_under ?_ fun b => ?_
  · rw [length_bookings, List.length_map]
  · have none : Report.empty.under b = [] := by cases b <;> rfl
    rw [under_through, none, List.nil_append]

/-- What becomes of no entry has nothing under it. -/
theorem under_through_eq_nil {b : Booking} (never : ∀ y a, (entry y a).2 ≠ b) (x : Site σ)
    (list : List α) : (through entry nameOf x .empty list).2.under b = [] := by
  have accounts := accounts_through entry nameOf x list
  rw [Report.under_eq_nil_iff accounts.length accounts.under]
  induction list generalizing x with
  | nil => exact List.not_mem_nil
  | cons a rest ih =>
    rw [bookings, List.mem_cons, not_or]
    exact ⟨(never x a).symm, ih _ (accounts_through entry nameOf _ rest)⟩

end

end Site

/-! ### The calls of a pass

Here a call may answer anything and leave anything behind.  What a client does with a server is one
case of this, and so is whatever a server could do wrong.
-/

/-- The calls that a pass makes on a client, and what comes of them.  Anything can: what a call finds
and what it leaves is up to it. -/
structure PassCalls (σ : Type) where
  look : Site σ → String → Site σ × Except Failure (Option FileRecord)
  fetch : Site σ → String → Site σ × Except Failure Nat
  store : Site σ → String → Site σ × Except Failure Unit
  delete : Site σ → String → Site σ × Except Failure Unit

namespace PassCalls

variable {σ : Type}

/-- The calls of a client with what is on the other side. -/
def ofPeer (p : Peer σ) : PassCalls σ where
  look x name := (x, x.localRecord name)
  fetch := Site.fetch p
  store := Site.store p
  delete := Site.delete p

variable (c : PassCalls σ)

/-- Does what was planned for a file. -/
def carryOut (x : Site σ) (name : String) : SyncAction → Site σ × Booking
  | .skip => (x, .skipped)
  | .anomaly => (x, .anomaly)
  | .fetch => ((c.fetch x name).1, .ofResult .fetched (c.fetch x name).2)
  | .store => ((c.store x name).1, .ofResult .stored (c.store x name).2)

/-- Brings an entry of a manifest in step. -/
def reconcileEntry (x : Site σ) (r : FileRecord) : Site σ × Booking :=
  match c.look x r.name with
  | (x, .error _) => (x, .failed)
  | (x, .ok mine) => c.carryOut x r.name (plan mine r)

/-- Sends a local change. -/
def applyChange (x : Site σ) (change : Watch.LocalChange) : Site σ × Booking :=
  match change.kind with
  | .changed => ((c.store x change.name).1, .ofResult .stored (c.store x change.name).2)
  | .removed => ((c.delete x change.name).1, .ofResult .deleted (c.delete x change.name).2)

def reconcile (x : Site σ) (manifest : List FileRecord) : Site σ × Report :=
  Site.through c.reconcileEntry FileRecord.name x .empty manifest

def applyLocalChanges (x : Site σ) (changes : List Watch.LocalChange) : Site σ × Report :=
  Site.through c.applyChange Watch.LocalChange.name x .empty changes

theorem reconcileEntry_ofPeer (p : Peer σ) :
    (ofPeer p).reconcileEntry = Site.reconcileEntry p := by
  funext x r
  unfold reconcileEntry Site.reconcileEntry ofPeer
  dsimp only
  cases x.localRecord r.name with
  | error failure => rfl
  | ok mine =>
    dsimp only
    cases plan mine r <;> rfl

theorem applyChange_ofPeer (p : Peer σ) : (ofPeer p).applyChange = Site.applyChange p := by
  funext x ⟨name, kind⟩
  cases kind <;> rfl

theorem reconcile_ofPeer (p : Peer σ) (x : Site σ) (manifest : List FileRecord) :
    (ofPeer p).reconcile x manifest = x.reconcile p manifest := by
  rw [reconcile, reconcileEntry_ofPeer, Site.reconcile, Site.reconcileFrom_eq]

theorem applyLocalChanges_ofPeer (p : Peer σ) (x : Site σ) (changes : List Watch.LocalChange) :
    (ofPeer p).applyLocalChanges x changes = x.applyLocalChanges p changes := by
  rw [applyLocalChanges, applyChange_ofPeer, Site.applyLocalChanges, Site.applyFrom_eq]

/-- What an entry of a manifest is booked as, by its calls and by the plan. -/
inductive EntryBooked (x : Site σ) (r : FileRecord) : Booking → Prop
  | unreadable {y : Site σ} {failure : Failure} : c.look x r.name = (y, .error failure) →
      EntryBooked x r .failed
  | inStep {y : Site σ} {mine : Option FileRecord} : c.look x r.name = (y, .ok mine) →
      plan mine r = .skip → EntryBooked x r .skipped
  | anomaly {y : Site σ} {mine : Option FileRecord} : c.look x r.name = (y, .ok mine) →
      plan mine r = .anomaly → EntryBooked x r .anomaly
  | fetched {y : Site σ} {mine : Option FileRecord} {b : Booking} :
      c.look x r.name = (y, .ok mine) → plan mine r = .fetch →
      Booking.Of .fetched (c.fetch y r.name).2 b → EntryBooked x r b
  | stored {y : Site σ} {mine : Option FileRecord} {b : Booking} :
      c.look x r.name = (y, .ok mine) → plan mine r = .store →
      Booking.Of .stored (c.store y r.name).2 b → EntryBooked x r b

/-- What a local change is booked as, by its call. -/
inductive ChangeBooked (x : Site σ) (change : Watch.LocalChange) : Booking → Prop
  | stored {b : Booking} : change.kind = .changed →
      Booking.Of .stored (c.store x change.name).2 b → ChangeBooked x change b
  | deleted {b : Booking} : change.kind = .removed →
      Booking.Of .deleted (c.delete x change.name).2 b → ChangeBooked x change b

variable {c}

theorem entryBooked_iff {x : Site σ} {r : FileRecord} {b : Booking} :
    c.EntryBooked x r b ↔ (c.reconcileEntry x r).2 = b := by
  unfold reconcileEntry
  constructor
  · intro booked
    cases booked with
    | unreadable looked => rw [looked]
    | inStep looked planned | anomaly looked planned => simp only [looked, planned, carryOut]
    | fetched looked planned of | stored looked planned of =>
      simp only [looked, planned, carryOut]
      exact Booking.of_iff.1 of
  · rcases looked : c.look x r.name with ⟨y, failure | mine⟩
    · rintro rfl
      exact .unreadable looked
    · dsimp only
      cases planned : plan mine r with
      | skip => rintro rfl; exact .inStep looked planned
      | anomaly => rintro rfl; exact .anomaly looked planned
      | fetch => exact fun booked => .fetched looked planned (Booking.of_iff.2 booked)
      | store => exact fun booked => .stored looked planned (Booking.of_iff.2 booked)

theorem changeBooked_iff {x : Site σ} {change : Watch.LocalChange} {b : Booking} :
    c.ChangeBooked x change b ↔ (c.applyChange x change).2 = b := by
  unfold applyChange
  constructor
  · intro booked
    cases booked with
    | stored kind of | deleted kind of =>
      rw [kind]
      exact Booking.of_iff.1 of
  · cases kind : change.kind with
    | changed => exact fun booked => .stored kind (Booking.of_iff.2 booked)
    | removed => exact fun booked => .deleted kind (Booking.of_iff.2 booked)

/--
**Each entry of a pass is booked once, whatever its calls come to.**  The report has the names of
the list, each entry under what became of it and in the order of the list; what becomes of an entry
is told by the plan and by its call, made when its turn comes.  A pass over a manifest deletes
nothing, and a batch of local changes fetches nothing and leaves nothing to a person.  The passes of
a client with a server are such passes.
-/
theorem booked_once (c : PassCalls σ) (x : Site σ) (manifest : List FileRecord)
    (changes : List Watch.LocalChange) :
    (∃ bookings, (c.reconcile x manifest).2.Accounts (manifest.map FileRecord.name) bookings ∧
      (c.reconcile x manifest).2.deleted = [] ∧
      ∀ (i : Fin manifest.length) (b : Booking), bookings[i.val]? = some b ↔
        c.EntryBooked (c.reconcile x (manifest.take i)).1 (manifest.get i) b) ∧
    (∃ bookings, (c.applyLocalChanges x changes).2.Accounts
        (changes.map Watch.LocalChange.name) bookings ∧
      (c.applyLocalChanges x changes).2.fetched = [] ∧
      (c.applyLocalChanges x changes).2.anomalies = [] ∧
      ∀ (i : Fin changes.length) (b : Booking), bookings[i.val]? = some b ↔
        c.ChangeBooked (c.applyLocalChanges x (changes.take i)).1 (changes.get i) b) ∧
    ∀ p : Peer σ, x.reconcile p manifest = (ofPeer p).reconcile x manifest ∧
      x.applyLocalChanges p changes = (ofPeer p).applyLocalChanges x changes := by
  refine ⟨⟨_, Site.accounts_through _ _ x manifest, ?_, fun i b => ?_⟩,
    ⟨_, Site.accounts_through _ _ x changes, ?_, ?_, fun i b => ?_⟩, fun p => ⟨?_, ?_⟩⟩
  · refine Site.under_through_eq_nil _ _ (b := .deleted) (fun y r booked => ?_) x manifest
    cases entryBooked_iff.2 booked with
    | fetched _ _ of | stored _ _ of => exact absurd of.among (by decide)
  · rw [Site.getElem?_bookings _ FileRecord.name, Option.some_inj, entryBooked_iff]
    rfl
  · refine Site.under_through_eq_nil _ _ (b := .fetched) (fun y change booked => ?_) x changes
    cases changeBooked_iff.2 booked with
    | stored _ of | deleted _ of => exact absurd of.among (by decide)
  · refine Site.under_through_eq_nil _ _ (b := .anomaly) (fun y change booked => ?_) x changes
    cases changeBooked_iff.2 booked with
    | stored _ of | deleted _ of => exact absurd of.among (by decide)
  · rw [Site.getElem?_bookings _ Watch.LocalChange.name, Option.some_inj, changeBooked_iff]
    rfl
  · exact (reconcile_ofPeer p x manifest).symm
  · exact (applyLocalChanges_ofPeer p x changes).symm

end PassCalls

end MountSync
