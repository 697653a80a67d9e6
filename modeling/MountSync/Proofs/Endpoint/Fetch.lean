/-
What a fetch that runs alone sends.

Nothing else happens while the file is read, so the open file stays what it was and each read goes
on where the last one ended.  Every piece has at least one byte, so the bytes that are still to be
sent become fewer with each message, and there is always enough effort left for them.

In the end the messages bring as many bytes of the file as were announced, from its beginning on;
or there are not as many, and the fetch says so.  The mount and the locks are as before.
-/
import MountSync.Endpoint.Fetch
import MountSync.Proofs.Mount.Change

namespace MountSync

namespace FetchChunk

/-- The content that messages bring, put together. -/
def contentOf (messages : List FetchChunk) : Bytes := messages.flatMap FetchChunk.content

/-- Messages of the size in which a file is read. -/
def Bounded (messages : List FetchChunk) : Prop := ∀ m ∈ messages, m.content.length ≤ readLimit

/-- Messages that bring content, a file that is read from its beginning on. -/
structure Bring (messages : List FetchChunk) (content : Bytes) : Prop where
  needed : ∀ m ∈ messages, m.copyNeeded = true
  bounded : Bounded messages
  content : contentOf messages = content

/-- Messages that bring a content of a file of so many bytes in pieces, of which none is empty and
none has more than `cap` bytes. -/
structure Pieces (cap : Nat) (size : UInt64) (messages : List FetchChunk) (content : Bytes) :
    Prop where
  needed : ∀ m ∈ messages, m.copyNeeded = true
  announced : ∀ m ∈ messages, m.fileSize = size
  some : ∀ m ∈ messages, m.content ≠ []
  short : ∀ m ∈ messages, m.content.length ≤ cap
  content : contentOf messages = content

theorem pieces_nil (cap : Nat) (size : UInt64) : Pieces cap size [] [] where
  needed := nofun
  announced := nofun
  some := nofun
  short := nofun
  content := rfl

theorem Pieces.cons {cap : Nat} {size : UInt64} {messages : List FetchChunk} {rest : Bytes}
    (h : Pieces cap size messages rest) {piece : Bytes} (some : piece ≠ [])
    (short : piece.length ≤ cap) :
    Pieces cap size (⟨size, true, piece⟩ :: messages) (piece ++ rest) where
  needed := List.forall_mem_cons.2 ⟨rfl, h.needed⟩
  announced := List.forall_mem_cons.2 ⟨rfl, h.announced⟩
  some := List.forall_mem_cons.2 ⟨some, h.some⟩
  short := List.forall_mem_cons.2 ⟨short, h.short⟩
  content := by rw [contentOf, List.flatMap_cons, ← h.content, contentOf]

theorem Pieces.bring {cap : Nat} {size : UInt64} {messages : List FetchChunk} {content : Bytes}
    (h : Pieces cap size messages content) (limited : cap ≤ readLimit) : Bring messages content where
  needed := h.needed
  bounded := fun m mem => Nat.le_trans (h.short m mem) limited
  content := h.content

end FetchChunk

/-- How a fetch ends, by what it finds under a name. -/
inductive Endpoint.Fetches (e : Endpoint) (name : String) (mine : Option FileVersion) :
    Except Failure Nat → List FetchChunk → Prop
  | sent {p : Place} {f : File} {messages : List FetchChunk} :
      Mount.accepts name = true → e.mount.locate name = .ok (p, .file f) →
      f.read = .ok f.content →
      resolve .fetch mine (Mount.recordOf name f f.content).version = .proceed →
      (UInt64.ofNat f.size).toNat ≤ f.content.length → messages ≠ [] →
      FetchChunk.Bring messages (f.content.take (UInt64.ofNat f.size).toNat) →
        Fetches e name mine (.ok (UInt64.ofNat f.size).toNat) messages
  | refused {failure : Failure} {messages : List FetchChunk} :
      FetchChunk.Bounded messages → Fetches e name mine (.error failure) messages

namespace FetchCall

variable {e : Endpoint} {now : Moment} {c : FetchCall}

/-! ### While a file is read

The induction is on the bytes that are still to be sent, of which each message takes at least one.
Reading a piece and handing it over are two of the rounds that a run has, so two for each byte are
enough.
-/

/-- A fetch of an open file that is at its place with the content that was seen. -/
structure Reading (e : Endpoint) (c : FetchCall) (s : Sending) : Prop where
  phase : c.phase = .reading s
  there : ∃ f, e.mount.tree.get? s.place = some (.file f) ∧ f.inode = s.inode ∧
    f.content = s.content
  within : s.sent ≤ s.content.length
  announced : s.sent ≤ s.record.size.toNat

/-- How many bytes are left of what was announced. -/
def left (s : Sending) : Nat := s.record.size.toNat - s.sent

/-- Whether there is time for an open file, and as much in it as was announced. -/
def Whole (now : Moment) (c : FetchCall) (s : Sending) : Prop :=
  c.deadline.isExpired now.instant = false ∧ s.record.size.toNat ≤ s.content.length

/-- The messages in which a file is sent from where it is read on: pieces of what is left, or a blank
one if the file is empty. -/
inductive Carries (cap : Nat) (s : Sending) : List FetchChunk → Prop
  | blank : s.record.size.toNat = 0 → Carries cap s [.blank]
  | pieces {messages : List FetchChunk} : s.record.size.toNat ≠ 0 →
      FetchChunk.Pieces cap s.record.size messages ((s.content.drop s.sent).take (left s)) →
        Carries cap s messages

theorem Carries.bring {cap : Nat} {s : Sending} {messages : List FetchChunk}
    (h : Carries cap s messages) (limited : cap ≤ readLimit) :
    FetchChunk.Bring messages ((s.content.drop s.sent).take (left s)) := by
  cases h with
  | blank none =>
      have nothing : left s = 0 := by
        unfold left
        omega
      rw [nothing, List.take_zero]
      exact ⟨List.forall_mem_singleton.2 rfl, List.forall_mem_singleton.2 (Nat.zero_le _), rfl⟩
  | pieces _ pieces => exact pieces.bring limited

/-- Of a file that is read from its beginning something is sent. -/
theorem Carries.ne_nil {cap : Nat} {s : Sending} {messages : List FetchChunk}
    (h : Carries cap s messages) (start : s.sent = 0)
    (long : s.record.size.toNat ≤ s.content.length) : messages ≠ [] := by
  cases h with
  | blank _ => exact List.cons_ne_nil _ _
  | pieces some pieces =>
      rintro rfl
      have length := congrArg List.length pieces.content
      rw [List.length_take, List.length_drop, left, start] at length
      exact some (by simpa [FetchChunk.contentOf, Nat.min_eq_left long] using length.symm)

/-- What reading an open file comes to. -/
structure Reads (cap : Nat) (e : Endpoint) (now : Moment) (c : FetchCall) (s : Sending)
    (r : Endpoint × FetchCall × List FetchChunk) : Prop where
  mount : r.1.mount = e.mount
  locks : r.1.locks = e.locks
  feed : r.1.feed = e.feed
  whole : Whole now c s →
    r.2.1.result? = some (.ok s.record.size.toNat) ∧ Carries cap s r.2.2
  shrank : c.deadline.isExpired now.instant = false → s.content.length < s.record.size.toNat →
    r.2.1.result? = some (.error (.shrank c.name s.content.length s.record.size)) ∧
      FetchChunk.Pieces cap s.record.size r.2.2 (s.content.drop s.sent)
  short : ¬ Whole now c s →
    (∀ m ∈ r.2.2, m.content.length ≤ cap) ∧ ∃ failure, r.2.1.result? = some (.error failure)

namespace Reading

variable {s : Sending}

/-- Nothing new is seen of a file that did not change. -/
theorem refresh_eq (r : Reading e c s) : s.refresh e.mount = s := by
  obtain ⟨f, there, same, content⟩ := r.there
  have seen : s.hasSeen f.content = true := (s.hasSeen_iff f.content).2 content
  rw [Sending.refresh, there]
  dsimp only
  rw [same, seen, Bool.not_true, Bool.and_false, if_neg Bool.false_ne_true]

/-- After a piece the file is read on from behind it. -/
theorem advance (r : Reading e c s) (limit : Nat) :
    Reading e (c.goTo (.reading (s.advance (s.nextPiece limit))))
      (s.advance (s.nextPiece limit)) := by
  have length : (s.nextPiece limit).length
      = min (min limit (left s)) (s.content.length - s.sent) := by
    rw [s.nextPiece_eq, List.length_take, List.length_drop, left]
  have within := r.within
  have announced := r.announced
  refine ⟨rfl, r.there, ?_, ?_⟩
  · show s.sent + (s.nextPiece limit).length ≤ s.content.length
    omega
  · show s.sent + (s.nextPiece limit).length ≤ s.record.size.toNat
    unfold left at length
    omega

end Reading

/-- What a run from an open file on comes to: a step, and the run from there. -/
def goOn (limits : Nat → Nat) (e : Endpoint) (now : Moment) (c : FetchCall) (fuel sent : Nat) :
    Endpoint × FetchCall × List FetchChunk :=
  run now limits (fun _ => .delivered) fuel sent (c.step e now (limits sent)).1
    (c.step e now (limits sent)).2

theorem run_finished {result : Except Failure Nat} (finished : c.phase = .finished result)
    (limits : Nat → Nat) (reader : Nat → Handover) (fuel sent : Nat) :
    run now limits reader fuel sent e c = (e, c, []) := by
  cases fuel with
  | zero => rfl
  | succ fuel => rw [run, finished]

/-- Taking a beginning and then what is left of a longer one gives the longer one. -/
theorem take_append_take_drop {α : Type} (l : List α) {m n : Nat} (h : m ≤ n) :
    l.take m ++ (l.drop (l.take m).length).take (n - (l.take m).length) = l.take n := by
  by_cases long : m ≤ l.length
  · rw [List.length_take, Nat.min_eq_left long]
    rw [← List.take_add, Nat.add_sub_cancel' h]
  · rw [List.take_of_length_le (by omega), List.drop_length, List.take_nil, List.append_nil,
      List.take_of_length_le (by omega)]

/-- A piece is empty once everything is sent, or when the file is too short. -/
theorem Reading.isEmpty_nextPiece {s : Sending} (r : Reading e c s) {limit : Nat}
    (positive : 0 < limit) (empty : s.nextPiece limit = []) :
    left s = 0 ∨ s.content.length = s.sent := by
  have length : (s.nextPiece limit).length
      = min (min limit (left s)) (s.content.length - s.sent) := by
    rw [s.nextPiece_eq, List.length_take, List.length_drop, left]
  have within := r.within
  rw [empty, List.length_nil] at length
  omega

/-- A file of which nothing more can be read is as long as announced, or too short. -/
theorem Reading.reads_close {s : Sending} (r : Reading e c s)
    (intime : c.deadline.isExpired now.instant = false)
    (empty : left s = 0 ∨ s.content.length = s.sent) (limits : Nat → Nat) (cap fuel sent : Nat)
    (enough : (c.close e s).2.effort ≤ fuel) :
    Reads cap e now c s (run now limits (fun _ => .delivered) fuel sent (c.close e s).1
      (c.close e s).2) := by
  have within := r.within
  have announced := r.announced
  unfold close at enough ⊢
  by_cases all : s.sent ≠ s.record.size.toNat
  · rw [if_pos all] at enough ⊢
    have finished : (c.fail (.shrank c.name s.sent s.record.size)).phase
        = .finished (.error (.shrank c.name s.sent s.record.size)) := rfl
    rw [run_finished finished]
    refine ⟨rfl, rfl, rfl, ?_, ?_, fun _ => ⟨List.forall_mem_nil _, _, rfl⟩⟩
    · rintro ⟨-, long⟩
      unfold left at empty
      omega
    · intro _ short
      have read : s.content.length = s.sent := by
        unfold left at empty
        omega
      rw [← read, List.drop_length]
      exact ⟨by rw [read]; rfl, FetchChunk.pieces_nil cap _⟩
  rw [if_neg all] at enough ⊢
  have all' : s.sent = s.record.size.toNat := Decidable.not_not.1 all
  have whole : Whole now c s := ⟨intime, by omega⟩
  have enough_read : ¬ s.content.length < s.record.size.toNat := by omega
  by_cases none : s.sent = 0
  · -- Of an empty file one message is sent, which says that it is empty.
    rw [if_pos none] at enough ⊢
    obtain ⟨fuel, rfl⟩ : ∃ k, fuel = k + 1 := Nat.exists_eq_add_of_le' enough
    have concluded : ((c.goTo (.offering .blank (.conclude 0))).handOver e .delivered)
        = (e.count (countCompleted 0), c.goTo (.finished (.ok 0))) := rfl
    have finished : (c.goTo (.finished (.ok 0))).phase = .finished (.ok 0) := rfl
    have ran : run now limits (fun _ => .delivered) (fuel + 1) sent e
        (c.goTo (.offering .blank (.conclude 0)))
          = (e.count (countCompleted 0), c.goTo (.finished (.ok 0)), [.blank]) := by
      have waits : (c.goTo (.offering .blank (.conclude 0))).phase
          = .offering .blank (.conclude 0) := rfl
      simp only [run, waits, concluded, run_finished finished, if_true]
    rw [ran]
    refine ⟨rfl, rfl, rfl, fun _ => ⟨?_, .blank (all' ▸ none)⟩,
      fun _ short => absurd short enough_read, fun short => absurd whole short⟩
    rw [← all', none]
    rfl
  · rw [if_neg none] at enough ⊢
    have finished : (c.conclude e s.sent).2.phase = .finished (.ok s.sent) := rfl
    have nothing : left s = 0 := by
      unfold left
      omega
    rw [run_finished finished]
    refine ⟨rfl, rfl, rfl, fun _ => ⟨?_, .pieces (all' ▸ none) ?_⟩,
      fun _ short => absurd short enough_read, fun short => absurd whole short⟩
    · rw [← all']
      rfl
    · rw [nothing, List.take_zero]
      exact FetchChunk.pieces_nil cap _

/-- What is read behind a piece follows it. -/
theorem Reading.reads_cons {s : Sending} (r : Reading e c s) {cap limit : Nat}
    (limited : limit ≤ cap) (some : s.nextPiece limit ≠ []) {e' : Endpoint} {c' : FetchCall}
    {messages : List FetchChunk}
    (rest : Reads cap e now (c.goTo (.reading (s.advance (s.nextPiece limit))))
      (s.advance (s.nextPiece limit)) (e', c', messages)) :
    Reads cap e now c s (e', c', s.message (s.nextPiece limit) :: messages) := by
  have short : (s.nextPiece limit).length ≤ cap := by
    rw [s.nextPiece_eq, List.length_take]
    exact Nat.le_trans (Nat.min_le_left ..) (Nat.le_trans (Nat.min_le_left ..) limited)
  refine ⟨rest.mount, rest.locks, rest.feed, ?_, ?_, ?_⟩
  · intro whole
    obtain ⟨finished, carries⟩ := rest.whole whole
    refine ⟨finished, ?_⟩
    cases carries with
    | blank none =>
        have announced := (r.advance limit).announced
        rw [none] at announced
        have more := List.length_pos_iff.2 some
        have sent : (s.advance (s.nextPiece limit)).sent = s.sent + (s.nextPiece limit).length := rfl
        omega
    | pieces size pieces =>
        refine .pieces size ?_
        have fewer : left (s.advance (s.nextPiece limit)) = left s - (s.nextPiece limit).length :=
          Nat.sub_add_eq ..
        have both : s.nextPiece limit
            ++ ((s.content.drop (s.sent + (s.nextPiece limit).length)).take
              (left s - (s.nextPiece limit).length))
            = (s.content.drop s.sent).take (left s) := by
          rw [← List.drop_drop, s.nextPiece_eq]
          exact take_append_take_drop _ (Nat.min_le_right ..)
        rw [fewer] at pieces
        exact both ▸ pieces.cons some short
  · intro intime tooShort
    obtain ⟨finished, pieces⟩ := rest.shrank intime tooShort
    refine ⟨finished, ?_⟩
    have both : s.nextPiece limit ++ s.content.drop (s.sent + (s.nextPiece limit).length)
        = s.content.drop s.sent := by
      rw [← List.drop_drop, s.nextPiece_eq]
      exact List.prefix_iff_eq_append.1 (List.take_prefix ..)
    exact both ▸ pieces.cons some short
  · intro cut
    obtain ⟨others, failed⟩ := rest.short cut
    exact ⟨List.forall_mem_cons.2 ⟨short, others⟩, failed⟩

/-- A read leaves less effort than there was before it. -/
theorem Reading.effort_step {s : Sending} (r : Reading e c s) (now : Moment) (limit : Nat) :
    (c.step e now limit).2.effort ≤ 2 * left s + 2 := by
  have step : c.step e now limit = c.read e now (max 1 (min limit e.chunkSize)) s := by
    unfold FetchCall.step
    rw [r.phase]
  rw [step]
  generalize max 1 (min limit e.chunkSize) = limit
  unfold FetchCall.read
  split
  · exact Nat.zero_le _
  rw [r.refresh_eq]
  dsimp only
  split
  · unfold close
    split
    · exact Nat.zero_le _
    · split
      · show 1 ≤ _
        omega
      · exact Nat.zero_le _
  · rename_i piece
    have some := List.length_pos_iff.2 piece
    have announced := (r.advance limit).announced
    show 2 * (s.record.size.toNat - (s.sent + _)) + 4 ≤ 2 * left s + 2
    unfold left
    have sent : (s.advance (s.nextPiece limit)).sent = s.sent + (s.nextPiece limit).length := rfl
    have size : (s.advance (s.nextPiece limit)).record.size.toNat = s.record.size.toNat := rfl
    omega

/-- **An open file is read to the end of what was announced, or until it is found too short, however
much each read gives.** -/
theorem Reading.reads {s : Sending} (r : Reading e c s) {limits : Nat → Nat} {cap : Nat}
    (limited : ∀ i, max 1 (min (limits i) e.chunkSize) ≤ cap) (fuel sent : Nat)
    (enough : (c.step e now (limits sent)).2.effort ≤ fuel) :
    Reads cap e now c s (goOn limits e now c fuel sent) := by
  -- On the number of bytes that are left: each message takes at least one of them.
  induction hn : left s using Nat.strongRecOn generalizing c s fuel sent with
  | ind n ih =>
      have positive : 0 < max 1 (min (limits sent) e.chunkSize) :=
        Nat.lt_of_lt_of_le Nat.zero_lt_one (Nat.le_max_left ..)
      have bounded := limited sent
      have first : c.step e now (limits sent)
          = c.read e now (max 1 (min (limits sent) e.chunkSize)) s := by
        unfold step
        rw [r.phase]
      rw [goOn, first]
      rw [first] at enough
      generalize max 1 (min (limits sent) e.chunkSize) = limit at positive bounded enough ⊢
      unfold FetchCall.read at enough ⊢
      by_cases late : c.deadline.isExpired now.instant = true
      · rw [if_pos late]
        have finished : (c.fail .deadlineExceeded).phase
            = .finished (.error .deadlineExceeded) := rfl
        rw [run_finished finished]
        exact ⟨rfl, rfl, rfl, fun whole => absurd late (Bool.not_eq_true _ ▸ whole.1),
          fun intime => absurd late (Bool.not_eq_true _ ▸ intime), fun _ => ⟨nofun, _, rfl⟩⟩
      rw [if_neg late] at enough ⊢
      rw [r.refresh_eq] at enough ⊢
      dsimp only at enough ⊢
      have intime : c.deadline.isExpired now.instant = false := Bool.not_eq_true _ ▸ late
      by_cases empty : s.nextPiece limit = []
      · rw [if_pos empty] at enough ⊢
        exact r.reads_close intime (r.isEmpty_nextPiece positive empty) limits cap fuel sent enough
      · rw [if_neg empty] at enough ⊢
        have some : 0 < (s.nextPiece limit).length := List.length_pos_iff.2 empty
        have announced := (r.advance limit).announced
        have fewer : left (s.advance (s.nextPiece limit)) = left s - (s.nextPiece limit).length :=
          Nat.sub_add_eq ..
        have r' := r.advance limit
        -- Handing over the message and the next read take two of the steps.
        have needed : 2 * left (s.advance (s.nextPiece limit)) + 4 ≤ fuel := enough
        obtain ⟨fuel, rfl⟩ : ∃ k, fuel = k + 2 := ⟨fuel - 2, by omega⟩
        have effort : ((c.goTo (.reading (s.advance (s.nextPiece limit)))).step e now
            (limits (sent + 1))).2.effort ≤ fuel := by
          have costs := r'.effort_step now (limits (sent + 1))
          omega
        have less : left (s.advance (s.nextPiece limit)) < n := by
          have within : s.sent + (s.nextPiece limit).length ≤ s.record.size.toNat := announced
          unfold left at fewer hn ⊢
          omega
        have rest := ih (left (s.advance (s.nextPiece limit))) less r' fuel (sent + 1) effort rfl
        have ran : run now limits (fun _ => .delivered) (fuel + 2) sent e
            (c.goTo (.offering (s.message (s.nextPiece limit))
              (.goOn (s.advance (s.nextPiece limit)))))
              = ((goOn limits e now (c.goTo (.reading (s.advance (s.nextPiece limit)))) fuel
                  (sent + 1)).1,
                (goOn limits e now (c.goTo (.reading (s.advance (s.nextPiece limit)))) fuel
                  (sent + 1)).2.1,
                s.message (s.nextPiece limit) ::
                  (goOn limits e now (c.goTo (.reading (s.advance (s.nextPiece limit)))) fuel
                    (sent + 1)).2.2) := rfl
        rw [ran]
        exact r.reads_cons bounded empty rest

/-! ### Up to the first message

A fetch looks at the file, compares the copies, and opens what it has found.  It can be over before
it offers anything, or offer one message that says that nothing is needed.
-/

variable {name : String} {mine : Option FileVersion} {deadline : Deadline} {s : Schedule}

theorem step_finished {result : Except Failure Nat} (finished : c.phase = .finished result)
    (limit : Nat) : c.step e now limit = (e, c) := by
  unfold step
  rw [finished]

theorem step_offering {message : FetchChunk} {next : AfterHandover}
    (waits : c.phase = .offering message next) (limit : Nat) : c.step e now limit = (e, c) := by
  unfold step
  rw [waits]

/-- What a fetch comes to that is over before its first message. -/
theorem finish_finished {result : Except Failure Nat} (finished : c.phase = .finished result)
    (limits : Nat → Nat) (reader : Nat → Handover) :
    c.finish e now limits reader = (e, c, []) :=
  run_finished finished ..

/-- A fetch that declines says so in one message. -/
theorem finish_declined {message : FetchChunk} {failure : Failure}
    (waits : c.phase = .offering message (.refuse failure)) (limits : Nat → Nat) :
    c.finish e now limits (fun _ => .delivered) = (e, c.fail failure, [message]) := by
  have effort : c.effort = 1 := by rw [FetchCall.effort, waits]
  have handed : c.handOver e .delivered = (e, c.fail failure) := by
    unfold handOver
    rw [waits]
  have finished : (c.fail failure).phase = .finished (.error failure) := rfl
  rw [finish, effort, run, waits]
  dsimp only
  rw [handed]
  dsimp only
  rw [run_finished finished, if_pos rfl]

/-- Once a fetch is over or waits for its reader it takes no steps. -/
theorem enter_of_still {limit : Nat} {e₂ : Endpoint} {c₁ c₂ : FetchCall}
    (first : (begin name mine deadline).step e s.arrival limit = (e, c₁))
    (second : c₁.step e s.decision limit = (e₂, c₂))
    (still : ∀ now, c₂.step e₂ now limit = (e₂, c₂)) :
    (begin name mine deadline).enter e s limit = (e₂, c₂) := by
  rw [enter, first]
  dsimp only
  rw [second]
  dsimp only
  rw [still]
  dsimp only
  rw [still]

/-- The version that decides is the one that is found. -/
theorem step_begin_of_found {record : FileRecord}
    (stat : e.mount.statFile name = .ok (some record)) (limit : Nat) :
    (begin name mine deadline).step e s.arrival limit
      = (e, (begin name mine deadline).goTo (.found record)) := by
  show (e, (begin name mine deadline).lookUp e) = _
  have stat' : e.mount.statFile (begin name mine deadline).name = .ok (some record) := stat
  unfold lookUp
  rw [stat']

/-- A fetch that goes on opens the file that it has looked at. -/
theorem enter_of_proceed {p : Place} {f : File} (accepted : Mount.accepts name = true)
    (found : e.mount.locate name = .ok (p, .file f)) (read : f.read = .ok f.content)
    (decision : deadline.isExpired s.decision.instant = false)
    (proceeds : resolve .fetch mine (Mount.recordOf name f f.content).version = .proceed)
    (limit : Nat) :
    ∃ c, (begin name mine deadline).enter e s limit = c.step e s.transfer limit ∧
      c.name = name ∧ c.deadline = deadline ∧
      Reading e c (.start (Mount.recordOf name f f.content) p f.inode f.content) := by
  have stat := Mount.statFile_of_file accepted found read
  have second : ((begin name mine deadline).goTo (.found (Mount.recordOf name f f.content))).step e
      s.decision limit
        = (e, (begin name mine deadline).goTo (.opening (Mount.recordOf name f f.content))) := by
    show ((begin name mine deadline).goTo (.found (Mount.recordOf name f f.content))).decideCopy e
      s.decision (Mount.recordOf name f f.content) = _
    have intime : ((begin name mine deadline).goTo
        (.found (Mount.recordOf name f f.content))).deadline.isExpired s.decision.instant = false :=
      decision
    have proceeds' : resolve .fetch ((begin name mine deadline).goTo
        (.found (Mount.recordOf name f f.content))).mine
          (Mount.recordOf name f f.content).version = .proceed := proceeds
    unfold decideCopy
    dsimp only
    rw [intime, if_neg Bool.false_ne_true, proceeds']
    rfl
  have third : ((begin name mine deadline).goTo (.opening (Mount.recordOf name f f.content))).step
      e s.transfer limit = (e, (begin name mine deadline).goTo
        (.reading (.start (Mount.recordOf name f f.content) p f.inode f.content))) := by
    show (e, ((begin name mine deadline).goTo
      (.opening (Mount.recordOf name f f.content))).openFile e
        (Mount.recordOf name f f.content)) = _
    have found' : e.mount.locate ((begin name mine deadline).goTo
        (.opening (Mount.recordOf name f f.content))).name = .ok (p, .file f) := found
    rw [openFile, found']
    rfl
  refine ⟨(begin name mine deadline).goTo
    (.reading (.start (Mount.recordOf name f f.content) p f.inode f.content)), ?_, rfl, rfl, ?_⟩
  · rw [enter, step_begin_of_found stat]
    dsimp only
    rw [second]
    dsimp only
    rw [third]
  · exact ⟨rfl, ⟨f, Mount.get?_of_locate found, rfl, rfl⟩, Nat.zero_le _, Nat.zero_le _⟩

/-- A copy that need not be replaced. -/
theorem enter_of_declined {record : FileRecord} {failure : Failure}
    (stat : e.mount.statFile name = .ok (some record))
    (decision : deadline.isExpired s.decision.instant = false)
    (declines : resolve .fetch mine record.version = .alreadySynced ∧
        failure = .upToDateOnClient name ∨
      resolve .fetch mine record.version = .staleSource ∧ failure = .clientNewer name)
    (limit : Nat) :
    (begin name mine deadline).enter e s limit
      = (e.count countSkipped,
        (begin name mine deadline).goTo (.offering (.skip record) (.refuse failure))) := by
  have second : ((begin name mine deadline).goTo (.found record)).step e s.decision limit
      = (e.count countSkipped,
        (begin name mine deadline).goTo (.offering (.skip record) (.refuse failure))) := by
    show ((begin name mine deadline).goTo (.found record)).decideCopy e s.decision record = _
    have intime : ((begin name mine deadline).goTo (.found record)).deadline.isExpired
        s.decision.instant = false := decision
    unfold decideCopy
    dsimp only
    rw [intime, if_neg Bool.false_ne_true]
    rcases declines with ⟨resolved, rfl⟩ | ⟨resolved, rfl⟩
    · have resolved' : resolve .fetch ((begin name mine deadline).goTo (.found record)).mine
          record.version = .alreadySynced := resolved
      rw [resolved']
      rfl
    · have resolved' : resolve .fetch ((begin name mine deadline).goTo (.found record)).mine
          record.version = .staleSource := resolved
      rw [resolved']
      rfl
  exact enter_of_still (step_begin_of_found stat limit) second fun now => step_offering rfl limit

end FetchCall

namespace Endpoint

variable {e : Endpoint} {name : String} {mine : Option FileVersion} {deadline : Deadline}
  {s : Schedule}

/-- A fetch that is over before its first message. -/
theorem fetch_of_finished {c : FetchCall} {failure : Failure}
    (entered : (FetchCall.begin name mine deadline).enter e s readLimit = (e, c))
    (finished : c.phase = .finished (.error failure)) :
    e.fetch name mine deadline s (fun _ => readLimit) (fun _ => .delivered)
      = (e, .error failure, []) := by
  rw [fetch, entered]
  dsimp only
  rw [FetchCall.finish_finished finished]
  dsimp only
  rw [FetchCall.result?, finished]
  rfl

/-- A fetch that need not replace the caller's copy says so. -/
theorem fetch_of_declined {record : FileRecord} {failure : Failure}
    (stat : e.mount.statFile name = .ok (some record))
    (decision : deadline.isExpired s.decision.instant = false)
    (declines : resolve .fetch mine record.version = .alreadySynced ∧
        failure = .upToDateOnClient name ∨
      resolve .fetch mine record.version = .staleSource ∧ failure = .clientNewer name)
    (limits : Nat → Nat) :
    e.fetch name mine deadline s limits (fun _ => .delivered)
      = (e.count FetchCall.countSkipped, .error failure, [.skip record]) := by
  have waits : ((FetchCall.begin name mine deadline).goTo
      (.offering (.skip record) (.refuse failure))).phase
        = .offering (.skip record) (.refuse failure) := rfl
  rw [fetch, FetchCall.enter_of_declined stat decision declines]
  dsimp only
  rw [FetchCall.finish_declined waits limits]
  rfl

/-- A fetch of a copy that shall be replaced sends what is told of the file, if there is time and if
the file has that much, however much each read gives. -/
theorem fetch_by_reads {p : Place} {f : File} (accepted : Mount.accepts name = true)
    (found : e.mount.locate name = .ok (p, .file f)) (read : f.read = .ok f.content)
    (decision : deadline.isExpired s.decision.instant = false)
    (proceeds : resolve .fetch mine (Mount.recordOf name f f.content).version = .proceed)
    {limits : Nat → Nat} {cap : Nat}
    (limited : ∀ i, max 1 (min (limits i) e.chunkSize) ≤ cap) :
    ∃ e' result messages,
      e.fetch name mine deadline s limits (fun _ => .delivered) = (e', result, messages) ∧
      e'.mount = e.mount ∧ e'.locks = e.locks ∧ e'.feed = e.feed ∧
      (deadline.isExpired s.transfer.instant = false ∧
          (UInt64.ofNat f.size).toNat ≤ f.content.length →
        result = .ok (UInt64.ofNat f.size).toNat ∧
          FetchCall.Carries cap (.start (Mount.recordOf name f f.content) p f.inode f.content)
            messages) ∧
      (deadline.isExpired s.transfer.instant = false →
          f.content.length < (UInt64.ofNat f.size).toNat →
        result = .error (.shrank name f.content.length (UInt64.ofNat f.size)) ∧
          FetchChunk.Pieces cap (UInt64.ofNat f.size) messages f.content) ∧
      (¬ (deadline.isExpired s.transfer.instant = false ∧
          (UInt64.ofNat f.size).toNat ≤ f.content.length) →
        (∀ m ∈ messages, m.content.length ≤ cap) ∧ ∃ failure, result = .error failure) := by
  obtain ⟨c, entered, named, same, reading⟩ :=
    FetchCall.enter_of_proceed accepted found read decision proceeds (limits 0)
  have reads : FetchCall.Reads cap e s.transfer c
      (.start (Mount.recordOf name f f.content) p f.inode f.content)
      (FetchCall.goOn limits e s.transfer c (c.step e s.transfer (limits 0)).2.effort 0) :=
    reading.reads limited _ 0 (Nat.le_refl _)
  have whole_iff : FetchCall.Whole s.transfer c
      (.start (Mount.recordOf name f f.content) p f.inode f.content) ↔
        deadline.isExpired s.transfer.instant = false ∧
          (UInt64.ofNat f.size).toNat ≤ f.content.length := by
    rw [FetchCall.Whole, same]
    rfl
  -- The rest of the call is the reading from its first step on; its end is named, so that what is
  -- known of the reading is known of the call.
  obtain ⟨⟨e', c', messages⟩, went⟩ : ∃ r, FetchCall.goOn limits e s.transfer c
      (c.step e s.transfer (limits 0)).2.effort 0 = r := ⟨_, rfl⟩
  rw [went] at reads
  refine ⟨e', c'.result?.getD (.error .deadlineExceeded), messages, ?_, reads.mount, reads.locks,
    reads.feed, ?_, ?_, ?_⟩
  · have finished : (c.step e s.transfer (limits 0)).2.finish (c.step e s.transfer (limits 0)).1
        s.transfer limits (fun _ => .delivered) = (e', c', messages) := went
    rw [fetch, entered]
    dsimp only
    rw [finished]
  · intro whole
    obtain ⟨finished, carries⟩ := reads.whole (whole_iff.2 whole)
    refine ⟨?_, carries⟩
    rw [finished]
    rfl
  · intro intime tooShort
    obtain ⟨finished, pieces⟩ := reads.shrank (same ▸ intime) tooShort
    refine ⟨?_, pieces⟩
    rw [finished, named]
    rfl
  · intro short
    obtain ⟨bounded, failure, finished⟩ := reads.short (mt whole_iff.1 short)
    refine ⟨bounded, failure, ?_⟩
    rw [finished]
    rfl

/-- What is sent of such a copy by reads that give as much as they can. -/
theorem fetch_of_proceed {p : Place} {f : File} (accepted : Mount.accepts name = true)
    (found : e.mount.locate name = .ok (p, .file f)) (read : f.read = .ok f.content)
    (decision : deadline.isExpired s.decision.instant = false)
    (proceeds : resolve .fetch mine (Mount.recordOf name f f.content).version = .proceed) :
    ∃ e' result messages,
      e.fetch name mine deadline s (fun _ => readLimit) (fun _ => .delivered)
        = (e', result, messages) ∧
      e'.mount = e.mount ∧ e'.locks = e.locks ∧
      (deadline.isExpired s.transfer.instant = false ∧
          (UInt64.ofNat f.size).toNat ≤ f.content.length →
        result = .ok (UInt64.ofNat f.size).toNat ∧ messages ≠ [] ∧
          FetchChunk.Bring messages (f.content.take (UInt64.ofNat f.size).toNat)) ∧
      (¬ (deadline.isExpired s.transfer.instant = false ∧
          (UInt64.ofNat f.size).toNat ≤ f.content.length) →
        FetchChunk.Bounded messages ∧ ∃ failure, result = .error failure) := by
  have limited : ∀ _ : Nat, max 1 (min readLimit e.chunkSize) ≤ readLimit :=
    fun _ => Nat.max_le.2 ⟨by decide, Nat.min_le_left ..⟩
  obtain ⟨e', result, messages, fetched, mount, locks, -, whole, -, short⟩ :=
    fetch_by_reads accepted found read decision proceeds limited
  refine ⟨e', result, messages, fetched, mount, locks, fun enough => ?_, short⟩
  obtain ⟨ok, carries⟩ := whole enough
  exact ⟨ok, carries.ne_nil rfl enough.2, carries.bring (Nat.le_refl _)⟩

/-- **Whatever a fetch finds, it leaves the mount and the locks as they are, and if it succeeds it
has sent as much of the file as is told of it.** -/
theorem fetches (e : Endpoint) (name : String) (mine : Option FileVersion) (deadline : Deadline)
    (s : Schedule) :
    ∃ e' result messages,
      e.fetch name mine deadline s (fun _ => readLimit) (fun _ => .delivered)
        = (e', result, messages) ∧
      e'.mount = e.mount ∧ e'.locks = e.locks ∧ e.Fetches name mine result messages := by
  -- Nothing is sent before the copies are compared.
  have early : ∀ {c₁ c₂ : FetchCall} {failure},
      (FetchCall.begin name mine deadline).step e s.arrival readLimit = (e, c₁) →
      c₁.step e s.decision readLimit = (e, c₂) → c₂.phase = .finished (.error failure) →
      ∃ e' result messages,
        e.fetch name mine deadline s (fun _ => readLimit) (fun _ => .delivered)
          = (e', result, messages) ∧
        e'.mount = e.mount ∧ e'.locks = e.locks ∧ e.Fetches name mine result messages := by
    intro c₁ c₂ failure first second finished
    have entered := FetchCall.enter_of_still first second
      fun now => FetchCall.step_finished finished readLimit
    exact ⟨e, .error failure, [], fetch_of_finished entered finished, rfl, rfl, .refused nofun⟩
  cases stat : e.mount.statFile name with
  | error failure =>
      have first : (FetchCall.begin name mine deadline).step e s.arrival readLimit
          = (e, (FetchCall.begin name mine deadline).fail failure) := by
        show (e, (FetchCall.begin name mine deadline).lookUp e) = _
        have stat' : e.mount.statFile (FetchCall.begin name mine deadline).name
            = .error failure := stat
        unfold FetchCall.lookUp
        rw [stat']
      exact early first (FetchCall.step_finished rfl readLimit) rfl
  | ok found =>
      cases found with
      | none =>
          have first : (FetchCall.begin name mine deadline).step e s.arrival readLimit
              = (e, (FetchCall.begin name mine deadline).fail (.notOnServer name)) := by
            show (e, (FetchCall.begin name mine deadline).lookUp e) = _
            have stat' : e.mount.statFile (FetchCall.begin name mine deadline).name
                = .ok none := stat
            unfold FetchCall.lookUp
            rw [stat']
            rfl
          exact early first (FetchCall.step_finished rfl readLimit) rfl
      | some record =>
          by_cases late : deadline.isExpired s.decision.instant = true
          · have second : ((FetchCall.begin name mine deadline).goTo (.found record)).step e
                s.decision readLimit
                  = (e, ((FetchCall.begin name mine deadline).goTo (.found record)).fail
                    .deadlineExceeded) := if_pos late
            exact early (FetchCall.step_begin_of_found stat readLimit) second rfl
          have decision : deadline.isExpired s.decision.instant = false := Bool.not_eq_true _ ▸ late
          have declined : ∀ {failure : Failure},
              (resolve .fetch mine record.version = .alreadySynced ∧
                failure = .upToDateOnClient name ∨
              resolve .fetch mine record.version = .staleSource ∧ failure = .clientNewer name) →
              ∃ e' result messages,
                e.fetch name mine deadline s (fun _ => readLimit) (fun _ => .delivered)
                  = (e', result, messages) ∧
                e'.mount = e.mount ∧ e'.locks = e.locks ∧
                e.Fetches name mine result messages := by
            intro failure declines
            refine ⟨_, _, _, fetch_of_declined stat decision declines _, rfl, rfl, .refused ?_⟩
            exact List.forall_mem_singleton.2 (Nat.zero_le _)
          cases resolved : resolve .fetch mine record.version with
          | alreadySynced => exact declined (Or.inl ⟨resolved, rfl⟩)
          | staleSource => exact declined (Or.inr ⟨resolved, rfl⟩)
          | proceed =>
              obtain ⟨accepted, p, f, found, read, rfl⟩ := Mount.file_of_statFile stat
              obtain ⟨e', result, messages, fetched, mount, locks, whole, short⟩ :=
                fetch_of_proceed accepted found read decision resolved
              refine ⟨e', result, messages, fetched, mount, locks, ?_⟩
              by_cases enough : deadline.isExpired s.transfer.instant = false ∧
                  (UInt64.ofNat f.size).toNat ≤ f.content.length
              · obtain ⟨rfl, some, bring⟩ := whole enough
                exact .sent accepted found read resolved enough.2 some bring
              · obtain ⟨bounded, failure, rfl⟩ := short enough
                exact .refused bounded

end Endpoint

end MountSync
