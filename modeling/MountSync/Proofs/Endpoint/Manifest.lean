/-
A manifest, and what it says of a mount.

A call for the manifest that is alone on its endpoint waits to the end of its time and is then
answered by the manifest of the mount as it is.

A manifest and a listing go through the same entries, and odd ones do neither any harm: entries whose
names are not text, temporary files, directories, links that lead nowhere.  The manifest asks for
more, though.  It looks every file up once more, by its name and as any call would, and one name that
cannot be looked up leaves the whole without a manifest.  Which names these are is said here: those
with a backslash, which a directory can have and calls may not use, and those that lead to a file
that cannot be read.  They are shown in the listing all the same, and can neither be looked at nor
fetched.
-/
import MountSync.Endpoint.Query
import MountSync.Proofs.Endpoint.Fetch
import MountSync.Proofs.Mount.Listing

namespace MountSync

/-! ### A call that is alone -/

/-- Who has just subscribed has nothing to receive. -/
theorem ChangeFeed.receive_subscribe (feed : ChangeFeed) :
    feed.subscribe.1.receive feed.subscribe.2 = (feed.subscribe.1, .nothing) := by
  have cursor : feed.subscribe.1.receivers.get? feed.subscribe.2 = some feed.published :=
    Table.get?_insert_self ..
  have caughtUp : ¬ feed.subscribe.1.published - feed.subscribe.1.ringSize > feed.published :=
    Nat.not_lt.2 (Nat.sub_le ..)
  have last : feed.subscribe.1.events[feed.published]? = none :=
    Array.getElem?_eq_none (Nat.le_refl feed.events.size)
  rw [receive, cursor]
  dsimp only
  rw [if_neg caughtUp, last]

/-- A wait in which nothing changes ends when its time is over. -/
theorem Waiter.poll_begin (feed : ChangeFeed) {now maxWait later : Nat}
    (ended : now + maxWait ≤ later) :
    (Waiter.begin feed now maxWait).2.poll (Waiter.begin feed now maxWait).1 later
      = (Waiter.begin feed now maxWait).2.giveUp (Waiter.begin feed now maxWait).1 := by
  have received : (Waiter.begin feed now maxWait).1.receive
      (Waiter.begin feed now maxWait).2.receiver
        = ((Waiter.begin feed now maxWait).1, .nothing) := feed.receive_subscribe
  rw [poll, received]
  exact if_pos ended

/-- A call for the manifest that is alone is answered by the manifest. -/
theorem Endpoint.manifest_eq (e : Endpoint) (now maxWait : Nat) (d : Deadline) :
    (e.manifest now maxWait d).2.2 = e.mount.enumerate := by
  unfold manifest ManifestCall.begin
  by_cases atOnce : min maxWait (d.remaining now) = 0
  · rw [if_pos atOnce]
    rfl
  · rw [if_neg atOnce]
    have ended := Waiter.poll_begin e.feed (Nat.le_max_right now
      (now + min maxWait (d.remaining now)))
    show ((ManifestCall.poll _ (max now (now + min maxWait (d.remaining now)))
      (.waiting (Waiter.begin e.feed now (min maxWait (d.remaining now))).2)).2.result?.getD
        (.error .deadlineExceeded)) = _
    have feed : (e.withFeed
      (Waiter.begin e.feed now (min maxWait (d.remaining now))).1).feed
        = (Waiter.begin e.feed now (min maxWait (d.remaining now))).1 := rfl
    rw [ManifestCall.poll, feed, ended]
    rfl

namespace Mount

/-! ### Listings and manifests

Both go through what the directory shows; the manifest reads each file besides.
-/

/-- A listing has the names that are shown, in their order. -/
theorem names_list {m : Mount} {files : List (String × File)} (h : m.regularFiles = .ok files) :
    ∃ entries, m.list = .ok entries ∧
      entries.map ListEntry.name
        = (files.map Prod.fst).mergeSort fun a b => decide (a ≤ b) := by
  rw [list, h]
  refine ⟨_, rfl, ?_⟩
  rw [List.map_mergeSort (s := fun a b => decide (a ≤ b)) fun _ _ _ _ => rfl, List.map_map]
  rfl

/-- A manifest has the names that are shown, in their order. -/
theorem names_enumerate {m : Mount} {files : List (String × File)}
    (h : m.regularFiles = .ok files) {records : List FileRecord}
    (made : m.enumerate = .ok records) :
    records.map FileRecord.name
      = (files.map Prod.fst).mergeSort fun a b => decide (a ≤ b) := by
  rw [enumerate, h] at made
  dsimp only at made
  split at made
  · cases made
  rename_i unordered looked
  cases made
  have names : unordered.map FileRecord.name = files.map Prod.fst := by
    refine names_statAll looked fun name mem => ?_
    obtain ⟨f, shows⟩ := (mem_names h).1 mem
    exact shows.statFile_ne_none
  rw [List.map_mergeSort (s := fun a b => decide (a ≤ b)) fun _ _ _ _ => rfl, names]

/-! ### Names that calls can use

A backslash is an ordinary character of a name to the file system, and is refused in the name of a
call.  So a file can be shown by a listing without being within reach of any call.
-/

/-- The entries have names that a directory can give. -/
def Named (m : Mount) : Prop :=
  ∀ name, (m.get? (.text name)).isSome → canName name = true

instance (m : Mount) : Decidable m.Named :=
  inferInstanceAs (Decidable (∀ name, _ → canName name = true))

/-- What the calls on a file need that is shown: a name without a backslash, and a file that can be
read. -/
structure Usable (name : String) (f : File) : Prop where
  named : '\\' ∉ name.toList
  read : f.read = .ok f.content

variable {m : Mount} {name : String} {f : File}

/-- Calls may use a name that is shown unless it has a backslash. -/
theorem Shows.usable_iff (named : m.Named) (h : m.Shows name f) :
    Usable name f ↔ accepts name = true ∧ f.read = .ok f.content := by
  rw [accepts_iff]
  constructor
  · rintro ⟨backslash, read⟩
    exact ⟨⟨named name h.present, backslash, h.shown⟩, read⟩
  · rintro ⟨⟨-, backslash, -⟩, read⟩
    exact ⟨backslash, read⟩

/-- Looking at a file that is shown finds it, or fails. -/
theorem Shows.stat_iff (named : m.Named) (h : m.Shows name f) :
    (∃ record, m.statFile name = .ok (some record)) ↔ Usable name f := by
  rw [h.usable_iff named, ← h.statFile_ok_iff]
  constructor
  · rintro ⟨record, stat⟩
    exact ⟨_, stat⟩
  · rintro ⟨found, stat⟩
    cases found with
    | none => exact absurd stat h.statFile_ne_none
    | some record => exact ⟨record, stat⟩

/-- A fetch of a file that is shown succeeds if the file can be used and is as long as is told. -/
theorem Shows.fetch_iff {e : Endpoint} (named : e.mount.Named) (h : e.mount.Shows name f)
    {d : Deadline} {s : Schedule} (decision : d.isExpired s.decision.instant = false)
    (transfer : d.isExpired s.transfer.instant = false) :
    (∃ bytes, (e.fetch name none d s (fun _ => readLimit) (fun _ => .delivered)).2.1 = .ok bytes) ↔
      Usable name f ∧ (UInt64.ofNat f.size).toNat ≤ f.content.length := by
  obtain ⟨p, leads⟩ := h.leads
  rw [h.usable_iff named]
  constructor
  · rintro ⟨bytes, fetched⟩
    obtain ⟨e', result, messages, went, -, -, fetches⟩ := e.fetches name none d s
    rw [went] at fetched
    cases fetches with
    | sent accepted found read _ enough _ _ =>
        cases leads.symm.trans found
        exact ⟨⟨accepted, read⟩, enough⟩
    | refused _ => exact nomatch fetched
  · rintro ⟨⟨accepted, read⟩, enough⟩
    have proceeds : MountSync.resolve .fetch none (recordOf name f f.content).version = .proceed :=
      rfl
    obtain ⟨e', result, messages, went, -, -, whole, -⟩ :=
      Endpoint.fetch_of_proceed accepted leads read decision proceeds
    obtain ⟨sent, -, -⟩ := whole ⟨transfer, enough⟩
    rw [went]
    exact ⟨_, sent⟩

/-- **A manifest shows what the listing shows, in the same order, but there is one only if every
file in the listing can be used.**  Files that can be used are those that can be looked at, and
fetched if they are as long as is told of them. -/
theorem manifest_of_listing (e : Endpoint) (entered : e.mount.enter = .ok ())
    (named : e.mount.Named) :
    (∀ now maxWait d, (e.manifest now maxWait d).2.2 = e.mount.enumerate) ∧
    ∃ entries, e.mount.list = .ok entries ∧
      (∀ name, name ∈ entries.map ListEntry.name ↔ ∃ f, e.mount.Shows name f) ∧
      ((∃ records, e.mount.enumerate = .ok records) ↔
        ∀ name f, e.mount.Shows name f → Usable name f) ∧
      (∀ records, e.mount.enumerate = .ok records →
        records.map FileRecord.name = entries.map ListEntry.name) ∧
      ∀ name f, e.mount.Shows name f →
        ((∃ record, e.mount.statFile name = .ok (some record)) ↔ Usable name f) ∧
        ∀ (d : Deadline) (s : Schedule), d.isExpired s.decision.instant = false →
          d.isExpired s.transfer.instant = false →
          ((∃ bytes, (e.fetch name none d s (fun _ => readLimit)
              (fun _ => .delivered)).2.1 = .ok bytes) ↔
            Usable name f ∧ (UInt64.ofNat f.size).toNat ≤ f.content.length) := by
  have files := regularFiles_of_enter entered
  obtain ⟨entries, listed, names⟩ := names_list files
  refine ⟨e.manifest_eq, entries, listed, ?_, ?_, ?_, ?_⟩
  · intro name
    rw [names, List.mem_mergeSort, mem_names files]
  · rw [enumerate_ok_iff entered]
    constructor
    · intro all name f shows
      exact (shows.usable_iff named).2 (all name f shows)
    · intro all name f shows
      exact (shows.usable_iff named).1 (all name f shows)
  · intro records made
    rw [names_enumerate files made, names]
  · intro name f shows
    exact ⟨shows.stat_iff named, fun d s => shows.fetch_iff named⟩

/-- A directory with a file that has a backslash in its name, beside one that has none. -/
def backslashed : Mount := .holding [("notes", [1, 2], 5), ("a\\b", [3], 6)]

theorem shows_backslashed : backslashed.Shows "a\\b" ⟨[3], .atSecond 6, 1, none⟩ :=
  ⟨by decide +kernel, by decide +kernel, [.text "a\\b", .text "mnt"], rfl⟩

/-- One name with a backslash leaves a directory without a manifest. -/
theorem listing_without_manifest :
    ¬ ∀ m : Mount, m.enter = .ok () → m.Named → ∃ records, m.enumerate = .ok records := by
  intro claim
  have entered : backslashed.enter = .ok () := rfl
  have made := claim backslashed entered (by decide +kernel)
  have accepted := ((enumerate_ok_iff entered).1 made _ _ shows_backslashed).1
  exact absurd accepted (by decide +kernel)

theorem backslashed_listing :
    backslashed.enter = .ok () ∧ backslashed.Named ∧
      ∃ entries, backslashed.list = .ok entries ∧
        ¬ ∃ records, backslashed.enumerate = .ok records := by
  have entered : backslashed.enter = .ok () := rfl
  have named : backslashed.Named := by decide +kernel
  obtain ⟨-, entries, listed, -, made, -⟩ :=
    manifest_of_listing (.create backslashed 0 0) entered named
  refine ⟨entered, named, entries, listed, fun ⟨records, there⟩ => ?_⟩
  have backslash := (made.1 ⟨records, there⟩ _ _ shows_backslashed).named
  exact backslash (by decide +kernel)

end Mount

end MountSync
