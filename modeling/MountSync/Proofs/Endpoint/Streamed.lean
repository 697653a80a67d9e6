/-
A fetch sends as much of a file as it tells, or one message that says that no copy is needed.

A fetch announces the size that is told of the file when it looks at it, and reads no further.  For a
file that keeps its content this is the whole of it.  A file that the machine makes up when it is
read has a size of its own: of one that gives more than was told the first bytes are sent, as many as
were told, and one that gives less makes the fetch fail once it is read to its end.

A read may give fewer bytes than there is room for, though at least one until the file is at its end.
How the file is cut into messages depends on that; what the messages bring does not.  No message is
empty unless nothing was announced, and none has more bytes than there is room for.
-/
import MountSync.Proofs.Conflict
import MountSync.Proofs.Endpoint.Fetch

namespace MountSync

/-- Messages that bring a content and announce its length: pieces of it that are not empty, or one
empty message if there is nothing in it. -/
structure FetchChunk.BringWhole (cap : Nat) (messages : List FetchChunk) (content : Bytes) :
    Prop where
  needed : ∀ m ∈ messages, m.copyNeeded = true
  announced : ∀ m ∈ messages, m.fileSize.toNat = content.length
  all : contentOf messages = content
  pieces : content = [] ∧ messages.map FetchChunk.content = [[]] ∨
    content ≠ [] ∧ ∀ m ∈ messages, m.content ≠ [] ∧ m.content.length ≤ cap

/-- What is sent of a file from its beginning are the first bytes of it, as many as were told, if it
has that many. -/
theorem FetchCall.Carries.bringWhole {cap : Nat} {record : FileRecord} {place : Place}
    {inode : Nat} {content : Bytes} {messages : List FetchChunk}
    (h : Carries cap (.start record place inode content) messages)
    (enough : record.size.toNat ≤ content.length) :
    FetchChunk.BringWhole cap messages (content.take record.size.toNat) := by
  have length : (content.take record.size.toNat).length = record.size.toNat := by
    rw [List.length_take, Nat.min_eq_left enough]
  cases h with
  | blank none =>
      have nothing : record.size.toNat = 0 := none
      rw [nothing, List.take_zero]
      exact ⟨List.forall_mem_singleton.2 rfl, List.forall_mem_singleton.2 rfl, rfl,
        Or.inl ⟨rfl, rfl⟩⟩
  | pieces some pieces =>
      refine ⟨pieces.needed, fun m mem => ?_, pieces.content, Or.inr ⟨?_, fun m mem => ?_⟩⟩
      · rw [pieces.announced m mem, length]
        rfl
      · intro nothing
        rw [nothing] at length
        exact some length.symm
      · exact ⟨pieces.some m mem, pieces.short m mem⟩

namespace Endpoint

/-- **A fetch that is carried out in time sends as many bytes of the file as are told of it, or one
message that says that no copy is needed.**

These bytes are the whole file if it keeps its content.  If it turns out to have fewer of them, all
that it has is sent, and the fetch fails.  Each read gives at least one byte until the file is at its
end, but otherwise as few as it likes.  Whatever becomes of the fetch, the mount, the locks and the
feed are as they were. -/
theorem fetch_told_or_skip (e : Endpoint) (name : String) (mine : Option FileVersion)
    (d : Deadline) (s : Schedule) (limits : Nat → Nat) {place : Place} {f : File}
    (accepted : Mount.accepts name = true) (found : e.mount.locate name = .ok (place, .file f))
    (read : f.read = .ok f.content) (decision : d.isExpired s.decision.instant = false)
    (transfer : d.isExpired s.transfer.instant = false) :
    let record := Mount.recordOf name f f.content
    let told := record.size.toNat
    let r := e.fetch name mine d s limits fun _ => .delivered
    (f.IsPlain → told = f.content.length) ∧
    (resolve .fetch mine record.version = .proceed →
      (told ≤ f.content.length → r.2.1 = .ok told ∧
        FetchChunk.BringWhole (max e.chunkSize 1) r.2.2 (f.content.take told)) ∧
      (f.content.length < told →
        r.2.1 = .error (.shrank name f.content.length record.size) ∧
          FetchChunk.Pieces (max e.chunkSize 1) record.size r.2.2 f.content)) ∧
    (resolve .fetch mine record.version ≠ .proceed → r.2.2 = [⟨record.size, false, []⟩] ∧
      ∃ version failure, mine = some version ∧ r.2.1 = .error failure ∧
        (version.checksum = record.checksum ∧ failure.kind = .alreadyExists ∨
          version.checksum ≠ record.checksum ∧ record.mtime < version.mtime ∧
            failure.kind = .cancelled)) ∧
    r.1.mount = e.mount ∧ r.1.locks = e.locks ∧ r.1.feed = e.feed := by
  dsimp only
  refine ⟨File.IsPlain.toNat_size, ?_⟩
  have stat := Mount.statFile_of_file accepted found read
  by_cases proceeds : resolve .fetch mine (Mount.recordOf name f f.content).version = .proceed
  · have limited : ∀ i, max 1 (min (limits i) e.chunkSize) ≤ max e.chunkSize 1 := by
      intro i
      omega
    obtain ⟨e', result, messages, fetched, mount, locks, feed, whole, shrank, -⟩ :=
      fetch_by_reads accepted found read decision proceeds limited
    rw [fetched]
    refine ⟨fun _ => ⟨fun enough => ?_, shrank transfer⟩, fun stays => absurd proceeds stays, mount,
      locks, feed⟩
    obtain ⟨rfl, carries⟩ := whole ⟨transfer, enough⟩
    exact ⟨rfl, carries.bringWhole enough⟩
  · obtain ⟨version, rfl, ⟨same, resolved⟩ | ⟨differs, newer, resolved⟩⟩ :=
      exists_of_declined proceeds
    · rw [fetch_of_declined stat decision (Or.inl ⟨resolved, rfl⟩) limits]
      refine ⟨fun goes => absurd goes proceeds, fun _ => ⟨rfl, version, _, rfl, rfl, ?_⟩, rfl, rfl,
        rfl⟩
      exact Or.inl ⟨same, rfl⟩
    · rw [fetch_of_declined stat decision (Or.inr ⟨resolved, rfl⟩) limits]
      refine ⟨fun goes => absurd goes proceeds, fun _ => ⟨rfl, version, _, rfl, rfl, ?_⟩, rfl, rfl,
        rfl⟩
      exact Or.inr ⟨differs, newer, rfl⟩

/-- An endpoint that sends pieces of at most two bytes, and has one file. -/
def pairwise : Endpoint := .create (.holding [("letter", [1, 2, 3, 4, 5], 9)]) 2 8

/-- Reads that give one byte and as much as they can in turn cut the file into four pieces.  A caller
with a newer copy is told that it needs none. -/
theorem fetch_pairwise :
    let s := Schedule.atOnce ⟨0, 50⟩
    let r := pairwise.fetch "letter" none ⟨100⟩ s (fun i => if i % 2 = 0 then 1 else readLimit)
      fun _ => .delivered
    let r' := pairwise.fetch "letter" (some ⟨0, 10⟩) ⟨100⟩ s (fun _ => readLimit)
      fun _ => .delivered
    r.2.1 = .ok 5 ∧ FetchChunk.BringWhole 2 r.2.2 [1, 2, 3, 4, 5] ∧
      r.2.2.map FetchChunk.content = [[1], [2, 3], [4], [5]] ∧ r.1.feed = pairwise.feed ∧
    r'.2.2 = [⟨5, false, []⟩] ∧ (∃ failure, r'.2.1 = .error failure ∧ failure.kind = .cancelled) ∧
      r'.1.feed = pairwise.feed := by
  intro s r r'
  let f : File := ⟨[1, 2, 3, 4, 5], .atSecond 9, 0, none⟩
  have accepted : Mount.accepts "letter" = true := by decide +kernel
  have found : pairwise.mount.locate "letter" = .ok ([.text "letter", .text "mnt"], .file f) := rfl
  have read : f.read = .ok f.content := rfl
  have intime : (⟨100⟩ : Deadline).isExpired s.decision.instant = false := by decide
  obtain ⟨-, sent, -, -, -, feed⟩ := fetch_told_or_skip pairwise "letter" none ⟨100⟩ s
    (fun i => if i % 2 = 0 then 1 else readLimit) accepted found read intime intime
  obtain ⟨-, -, skip, -, -, feed'⟩ := fetch_told_or_skip pairwise "letter" (some ⟨0, 10⟩) ⟨100⟩ s
    (fun _ => readLimit) accepted found read intime intime
  obtain ⟨ok, bring⟩ := (sent rfl).1 (by decide)
  obtain ⟨skipped, version, failure, is, error, ⟨same, -⟩ | ⟨-, -, cancelled⟩⟩ :=
    skip (by decide +kernel)
  · cases is
    exact absurd same (by decide +kernel)
  · exact ⟨ok, bring, by decide +kernel, feed, skipped, ⟨failure, error, cancelled⟩, feed'⟩

/-- What a fetch sends in time need not be the whole file. -/
theorem sent_need_not_be_whole :
    ¬ ∀ (e : Endpoint) (name : String) (mine : Option FileVersion) (d : Deadline) (s : Schedule)
      (limits : Nat → Nat) (place : Place) (f : File),
      Mount.accepts name = true → e.mount.locate name = .ok (place, .file f) →
      f.read = .ok f.content → d.isExpired s.decision.instant = false →
      d.isExpired s.transfer.instant = false →
      resolve .fetch mine (Mount.recordOf name f f.content).version = .proceed →
      FetchChunk.contentOf (e.fetch name mine d s limits fun _ => .delivered).2.2 = f.content := by
  intro claim
  let f : File := ⟨[76, 105, 110, 117, 120, 10], .atSecond 5, 1, some ⟨0, none⟩⟩
  have whole := claim (.create .unsized 8 8) "f" none ⟨100⟩ (.atOnce ⟨0, 50⟩) (fun _ => readLimit)
    [.text "ostype"] f (by decide +kernel) rfl rfl (by decide) (by decide) rfl
  exact absurd whole (by decide +kernel)

end Endpoint

end MountSync
