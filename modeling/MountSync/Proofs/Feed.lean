/-
The change feed, and everybody who listens.

Those who use a feed know nothing of one another.  Some announce changes, some have subscribed and
take what comes when they like, and some wait for one change and leave.  An audience is a feed with
all of these and a clock, and what they do is a list of acts in any order: a wait that has begun may
go on at once, after many further changes, or never.

The ring keeps the latest changes only, so a wait that goes on late has lost some.  It does not take
that for silence.  What is carried from act to act is that the cursor of a wait stands where it stood
when the wait began, because whatever moves the cursor ends the wait as well; and that the receivers
of a feed are those of its subscribers and of the waits that are not over, each of them once.
-/
import MountSync.Feed
import Mathlib.Data.List.Nodup
import Mathlib.Data.List.Perm.Basic

namespace MountSync

/-! ### The keys of a table -/

namespace Table

variable {κ α : Type} [DecidableEq κ] (t : Table κ α) {k : κ}

theorem keys_erase (k : κ) : (t.erase k).keys = t.keys.erase k := by
  rw [keys, keys, List.Nodup.erase_eq_filter t.distinct, List.filter_map]
  simp only [erase, Function.comp_def, bne, beq_eq_decide, decide_not]

theorem keys_insert (k : κ) (a : α) : (t.insert k a).keys = k :: t.keys.erase k := by
  rw [← t.keys_erase]
  rfl

/-- A row that is put under a key that is there changes no key. -/
theorem keys_insert_perm (there : k ∈ t.keys) (a : α) : (t.insert k a).keys.Perm t.keys := by
  rw [t.keys_insert]
  exact (List.perm_cons_erase there).symm

theorem keys_erase_perm {rest : List κ} (keys : t.keys.Perm (k :: rest)) :
    (t.erase k).keys.Perm rest := by
  rw [t.keys_erase]
  simpa using keys.erase k

theorem erase_insert (k : κ) (a : α) : (t.insert k a).erase k = t.erase k := by
  apply Table.ext
  simp [insert, erase]

end Table

/-! ### One receiver

What a receiver gets is decided by where its cursor is: past all changes, among those that the ring
has, or before them.
-/

namespace ChangeFeed

variable (f : ChangeFeed) {receiver cursor : Nat}

theorem ringSize_pos : 0 < f.ringSize :=
  Nat.pos_of_isPowerOfTwo (Nat.isPowerOfTwo_nextPowerOfTwo _)

theorem unsubscribe_advance (receiver cursor : Nat) :
    (f.advance receiver cursor).unsubscribe receiver = f.unsubscribe receiver := by
  unfold advance unsubscribe
  simp only [Table.erase_insert]

/-- Who is past all changes finds nothing. -/
theorem receive_of_past (cursor : f.receivers.get? receiver = some f.published) :
    f.receive receiver = (f, .nothing) := by
  have none : f.events[f.published]? = none := Array.getElem?_eq_none (Nat.le_refl _)
  simp [receive, cursor, none]

/-- Who is not too far behind gets the next change. -/
theorem receive_of_held (is : f.receivers.get? receiver = some cursor)
    (behind : cursor < f.published) (held : f.published - f.ringSize ≤ cursor) :
    ∃ e, f.events[cursor]? = some e ∧
      f.receive receiver = (f.advance receiver (cursor + 1), .event e) := by
  refine ⟨f.events[cursor], Array.getElem?_eq_getElem behind, ?_⟩
  simp [receive, is, Nat.not_lt.2 held, Array.getElem?_eq_getElem behind]

/-- Who is too far behind is moved to the oldest change that is left. -/
theorem receive_of_lost (is : f.receivers.get? receiver = some cursor)
    (lost : cursor < f.published - f.ringSize) :
    f.receive receiver = (f.advance receiver (f.published - f.ringSize),
      .lagged (f.published - f.ringSize - cursor)) := by
  simp [receive, is, lost]

/-- A receiver is left where it is, or is moved. -/
theorem receive_cases (receiver : Nat) :
    (f.receive receiver).1 = f ∨
      receiver ∈ f.receivers.keys ∧ ∃ cursor, (f.receive receiver).1 = f.advance receiver cursor := by
  unfold receive
  split
  · exact Or.inl rfl
  · rename_i cursor is
    have there : receiver ∈ f.receivers.keys := by simp [f.receivers.mem_keys_iff, is]
    split
    · exact Or.inr ⟨there, _, rfl⟩
    · split
      · exact Or.inr ⟨there, _, rfl⟩
      · exact Or.inl rfl

end ChangeFeed

/-! ### One wait -/

namespace Waiter

variable (f : ChangeFeed) (w : Waiter) (now : Nat) {cursor : Nat}

/-- A wait that goes on after further changes ends with the oldest of them that is left. -/
theorem poll_of_behind (is : f.receivers.get? w.receiver = some cursor)
    (behind : cursor < f.published) :
    ∃ e, f.events[max cursor (f.published - f.ringSize)]? = some e ∧
      w.poll f now = ((f.unsubscribe w.receiver).countWakeup, .ok (some e)) := by
  by_cases held : f.published - f.ringSize ≤ cursor
  · obtain ⟨e, at_, received⟩ := f.receive_of_held is behind held
    refine ⟨e, by rwa [Nat.max_eq_left held], ?_⟩
    simp [poll, received, wake, f.unsubscribe_advance]
  · have lost : cursor < f.published - f.ringSize := Nat.lt_of_not_le held
    -- The second attempt is made at the oldest change of the ring, which is never empty.
    have left : f.published - f.ringSize < f.published := by
      have := f.ringSize_pos
      omega
    obtain ⟨e, at_, received⟩ :=
      (f.advance w.receiver (f.published - f.ringSize)).receive_of_held
        (f.receivers.get?_insert_self ..) left (Nat.le_refl _)
    refine ⟨e, by rwa [Nat.max_eq_right (Nat.le_of_lt lost)], ?_⟩
    simp [poll, f.receive_of_lost is lost, received, wake, ChangeFeed.unsubscribe_advance]

/-- A wait that goes on without a further change ends if its time is over. -/
theorem poll_of_past (is : f.receivers.get? w.receiver = some f.published) :
    w.poll f now = if w.expiry ≤ now then w.giveUp f else (f, .error w) := by
  simp [poll, f.receive_of_past is]

end Waiter

/-! ### Everybody who listens

`Audience` has them all in one list of acts, so that an interleaving is an order of the acts and
nothing else.
-/

/-- How far a wait has come. -/
inductive VigilPhase
  | waiting (w : Waiter)
  /-- It ended at a time, when so many changes had been announced. -/
  | finished (seen ended : Nat) (outcome : Option ChangeEvent)
  /-- Whoever waited has left before the end. -/
  | left
  deriving DecidableEq, Repr

/-- A wait, and what was the case when it began. -/
structure Vigil where
  /-- How many changes had been announced. -/
  since : Nat
  begun : Nat
  maxWait : Nat
  phase : VigilPhase
  deriving DecidableEq, Repr

namespace Vigil

/-- The receivers that a wait holds. -/
def receivers (v : Vigil) : List Nat :=
  match v.phase with
  | .waiting w => [w.receiver]
  | _ => []

def isWoken (v : Vigil) : Bool :=
  match v.phase with
  | .finished _ _ outcome => outcome.isSome
  | _ => false

def isTimedOut (v : Vigil) : Bool :=
  match v.phase with
  | .finished _ _ outcome => outcome.isNone
  | _ => false

def isWaiting (v : Vigil) : Bool :=
  match v.phase with
  | .waiting _ => true
  | _ => false

def isFinished (v : Vigil) : Bool :=
  match v.phase with
  | .finished .. => true
  | _ => false

/-- Lets a wait go on. -/
def run (now : Nat) (f : ChangeFeed) (v : Vigil) : ChangeFeed × Vigil :=
  match v.phase with
  | .waiting w =>
    match w.poll f now with
    | (f', .ok outcome) => (f', { v with phase := .finished f.published now outcome })
    | (f', .error w') => (f', { v with phase := .waiting w' })
  | _ => (f, v)

/-- Lets whoever waits leave. -/
def leave (f : ChangeFeed) (v : Vigil) : ChangeFeed × Vigil :=
  match v.phase with
  | .waiting w => (f.unsubscribe w.receiver, { v with phase := .left })
  | _ => (f, v)

end Vigil

/-- A feed, the time, and everybody who listens. -/
structure Audience where
  feed : ChangeFeed
  now : Nat
  /-- The receivers of those who have subscribed for themselves. -/
  subscribers : List Nat
  /-- All waits, in the order in which they began. -/
  vigils : List Vigil

/-- What can happen around a feed. -/
inductive FeedAct
  | publish (e : ChangeEvent)
  | subscribe
  | unsubscribe (receiver : Nat)
  | receive (receiver : Nat)
  | wait (maxWait : Nat)
  /-- The wait that began as the `i`-th goes on. -/
  | run (i : Nat)
  /-- Whoever waits there leaves. -/
  | leave (i : Nat)
  | advance (milliseconds : Nat)
  deriving DecidableEq, Repr

/-- The change that an act announces. -/
def FeedAct.told? : FeedAct → Option ChangeEvent
  | .publish e => some e
  | _ => none

namespace Audience

def start (capacity : Nat) : Audience := ⟨.create capacity, 0, [], []⟩

/-- The receivers of everybody who listens. -/
def live (a : Audience) : List Nat := a.subscribers ++ a.vigils.flatMap Vigil.receivers

/-- One wait has its turn. -/
def turn (a : Audience) (i : Nat) (act : ChangeFeed → Vigil → ChangeFeed × Vigil) : Audience :=
  match a.vigils[i]? with
  | some v => { a with feed := (act a.feed v).1, vigils := a.vigils.set i (act a.feed v).2 }
  | none => a

def step (a : Audience) : FeedAct → Audience
  | .publish e => { a with feed := (a.feed.publish e.name e.kind).1 }
  | .subscribe =>
    { a with feed := a.feed.subscribe.1, subscribers := a.feed.subscribe.2 :: a.subscribers }
  | .unsubscribe receiver =>
    if receiver ∈ a.subscribers then
      { a with
          feed := a.feed.unsubscribe receiver
          subscribers := a.subscribers.erase receiver }
    else a
  | .receive receiver =>
    if receiver ∈ a.subscribers then { a with feed := (a.feed.receive receiver).1 } else a
  | .wait maxWait =>
    { a with
        feed := (Waiter.begin a.feed a.now maxWait).1
        vigils := a.vigils ++ [⟨a.feed.published, a.now, maxWait,
          .waiting (Waiter.begin a.feed a.now maxWait).2⟩] }
  | .run i => a.turn i (Vigil.run a.now)
  | .leave i => a.turn i Vigil.leave
  | .advance milliseconds => { a with now := a.now + milliseconds }

/-- All acts, one after another. -/
def after (a : Audience) (acts : List FeedAct) : Audience := acts.foldl step a

end Audience

/-! ### What is true of a wait

`Kept` relates a wait to the feed of the moment.  A feed only grows, so a wait that is left alone is
kept without its having a turn.
-/

namespace ChangeFeed

/-- A feed goes on from another one: nothing that was announced is taken back. -/
structure Extends (f f' : ChangeFeed) : Prop where
  capacity : f'.capacity = f.capacity
  events : f.events.toList <+: f'.events.toList

variable {f f' : ChangeFeed}

theorem Extends.of_same (same : f'.capacity = f.capacity ∧ f'.events = f.events) : f.Extends f' :=
  ⟨same.1, same.2 ▸ List.prefix_rfl⟩

theorem Extends.ringSize (h : f.Extends f') : f'.ringSize = f.ringSize := by
  simp [ChangeFeed.ringSize, h.capacity]

theorem Extends.published (h : f.Extends f') : f.published ≤ f'.published := by
  simpa [ChangeFeed.published] using h.events.length_le

theorem Extends.event {i : Nat} {e : ChangeEvent} (h : f.Extends f')
    (is : f.events[i]? = some e) : f'.events[i]? = some e := by
  obtain ⟨more, events⟩ := h.events
  rw [← Array.getElem?_toList] at is ⊢
  obtain ⟨inside, rfl⟩ := List.getElem?_eq_some_iff.1 is
  rw [← events, List.getElem?_append_left inside, List.getElem?_eq_getElem inside]

end ChangeFeed

namespace Vigil

/-- A wait that goes on has its cursor where it was at first, and one that is over has ended for a
reason. -/
def Kept (f : ChangeFeed) (v : Vigil) : Prop :=
  match v.phase with
  | .waiting w =>
    f.receivers.get? w.receiver = some v.since ∧ v.since ≤ f.published ∧
      w.expiry = v.begun + v.maxWait
  | .finished seen ended none => seen = v.since ∧ v.begun + v.maxWait ≤ ended
  | .finished seen _ (some e) =>
    v.since < seen ∧ f.events[max v.since (seen - f.ringSize)]? = some e
  | .left => True

variable {f f' : ChangeFeed} {v : Vigil}

/-- A wait is kept by whatever leaves its receiver alone. -/
theorem Kept.extend (kept : v.Kept f) (h : f.Extends f')
    (same : ∀ r ∈ v.receivers, f'.receivers.get? r = f.receivers.get? r) : v.Kept f' := by
  obtain ⟨since, begun, maxWait, w | ⟨seen, ended, - | e⟩ | -⟩ := v
  · obtain ⟨cursor, told, expiry⟩ := kept
    exact ⟨(same w.receiver (by simp [receivers])).trans cursor, Nat.le_trans told h.published, expiry⟩
  · exact kept
  · have ring := h.ringSize
    obtain ⟨behind, is⟩ := kept
    exact ⟨behind, ring ▸ h.event is⟩
  · trivial

/-- A turn of a wait: it stays, or it gives its receiver back and is counted. -/
inductive Turn (f : ChangeFeed) (v : Vigil) : ChangeFeed → Vigil → Prop
  | stays : Turn f v f v
  | leaves {f' : ChangeFeed} {v' : Vigil} (w : Waiter) (waits : v.phase = .waiting w)
      (none : v'.receivers = [])
      (receivers : f'.receivers = f.receivers.erase w.receiver)
      (next : f'.nextReceiver = f.nextReceiver)
      (capacity : f'.capacity = f.capacity)
      (events : f'.events = f.events)
      (kept : v'.Kept f')
      (woken : f'.wakeups = f.wakeups + v'.isWoken.toNat)
      (timedOut : f'.timeouts = f.timeouts + v'.isTimedOut.toNat) :
      Turn f v f' v'

theorem Turn.same {v' : Vigil} (turn : v.Turn f f' v') :
    f'.capacity = f.capacity ∧ f'.events = f.events := by
  cases turn with
  | stays => exact ⟨rfl, rfl⟩
  | leaves w waits none receivers next capacity events kept woken timedOut =>
      exact ⟨capacity, events⟩

theorem run_of_behind {w : Waiter} (now : Nat) (kept : v.Kept f) (waits : v.phase = .waiting w)
    (behind : v.since < f.published) :
    ∃ e, f.events[max v.since (f.published - f.ringSize)]? = some e ∧
      v.run now f = ((f.unsubscribe w.receiver).countWakeup,
        { v with phase := .finished f.published now (some e) }) := by
  rw [Kept, waits] at kept
  obtain ⟨e, is, polled⟩ := w.poll_of_behind f now kept.1 behind
  exact ⟨e, is, by simp [run, waits, polled]⟩

theorem run_of_past {w : Waiter} (now : Nat) (kept : v.Kept f) (waits : v.phase = .waiting w)
    (past : v.since = f.published) :
    v.run now f = if v.begun + v.maxWait ≤ now then
      ((f.unsubscribe w.receiver).countTimeout, { v with phase := .finished f.published now none })
      else (f, v) := by
  rw [Kept, waits] at kept
  obtain ⟨cursor, -, expiry⟩ := kept
  rw [past] at cursor
  have polled := w.poll_of_past f now cursor
  rw [expiry] at polled
  by_cases ended : v.begun + v.maxWait ≤ now
  · rw [if_pos ended] at polled ⊢
    simp [run, waits, polled, Waiter.giveUp]
  · rw [if_neg ended] at polled ⊢
    simp only [run, waits, polled]
    rw [← waits]

/-- A turn in which nothing happens. -/
theorem turn_of_idle {result : ChangeFeed × Vigil} (idle : result = (f, v)) :
    v.Turn f result.1 result.2 := by
  rw [idle]
  exact .stays

theorem turn_run (now : Nat) (kept : v.Kept f) : v.Turn f (v.run now f).1 (v.run now f).2 := by
  cases waits : v.phase with
  | waiting w =>
      have told : v.since ≤ f.published := by
        rw [Kept, waits] at kept
        exact kept.2.1
      by_cases behind : v.since < f.published
      · obtain ⟨e, is, ran⟩ := run_of_behind now kept waits behind
        rw [ran]
        exact .leaves w waits rfl rfl rfl rfl rfl ⟨behind, is⟩ rfl rfl
      · have past : v.since = f.published := Nat.le_antisymm told (Nat.le_of_not_lt behind)
        rw [run_of_past now kept waits past]
        split
        · rename_i ended
          exact .leaves w waits rfl rfl rfl rfl rfl ⟨past.symm, ended⟩ rfl rfl
        · exact .stays
  | _ => exact turn_of_idle (by rw [run, waits])

theorem turn_leave : v.Turn f (v.leave f).1 (v.leave f).2 := by
  cases waits : v.phase with
  | waiting w =>
      rw [leave, waits]
      exact .leaves w waits rfl rfl rfl rfl rfl trivial rfl rfl
  | _ => exact turn_of_idle (by rw [leave, waits])

end Vigil

/-! ### What is true of an audience

The receivers of the feed are known exactly, so a new one can be seen to be new, and one that is
given back to be nobody else's.
-/

namespace Audience

/-- What is true of an audience at any time. -/
structure Sound (a : Audience) : Prop where
  live : a.feed.receivers.keys.Perm a.live
  next : ∀ r ∈ a.feed.receivers.keys, r < a.feed.nextReceiver
  kept : ∀ v ∈ a.vigils, v.Kept a.feed
  woken : a.feed.wakeups = a.vigils.countP Vigil.isWoken
  timedOut : a.feed.timeouts = a.vigils.countP Vigil.isTimedOut

theorem sound_start (capacity : Nat) : (start capacity).Sound :=
  ⟨List.Perm.nil, nofun, nofun, rfl, rfl⟩

variable {a : Audience}

theorem Sound.nodup (sound : a.Sound) : a.live.Nodup :=
  sound.live.nodup_iff.1 a.feed.receivers.distinct

/-- The receivers of the waits are none of a subscriber's. -/
theorem Sound.ne_subscriber (sound : a.Sound) {receiver r : Nat} {v : Vigil}
    (subscribed : receiver ∈ a.subscribers) (mem : v ∈ a.vigils) (holds : r ∈ v.receivers) :
    r ≠ receiver := by
  intro is
  rw [is] at holds
  exact List.disjoint_of_nodup_append sound.nodup subscribed (List.mem_flatMap.2 ⟨v, mem, holds⟩)

/-- A wait that has its turn, among the others. -/
theorem turn_eq (a : Audience) (i : Nat) (act : ChangeFeed → Vigil → ChangeFeed × Vigil) :
    a.turn i act = a ∨ ∃ before v after, a.vigils = before ++ v :: after ∧ before.length = i ∧
      a.turn i act = { a with
        feed := (act a.feed v).1, vigils := before ++ (act a.feed v).2 :: after } := by
  unfold turn
  split
  · rename_i v at_
    obtain ⟨inside, rfl⟩ := List.getElem?_eq_some_iff.1 at_
    refine Or.inr ⟨a.vigils.take i, a.vigils[i], a.vigils.drop (i + 1), ?_, ?_, ?_⟩
    · simp
    · simp [Nat.le_of_lt inside]
    · simp [List.set_eq_take_append_cons_drop, inside]
  · exact Or.inl rfl

/-- A count among the waits grows by one that counts now and did not before. -/
theorem countP_replace (p : Vigil → Bool) (before after : List Vigil) {v : Vigil} (v' : Vigil)
    (counts : p v = false) : (before ++ v' :: after).countP p
      = (before ++ v :: after).countP p + (p v').toNat := by
  simp only [List.countP_append, List.countP_cons, counts]
  cases p v' <;> simp
  omega

theorem Sound.replace {f' : ChangeFeed} {v v' : Vigil} {before after : List Vigil}
    (sound : a.Sound) (vigils : a.vigils = before ++ v :: after) (turn : v.Turn a.feed f' v') :
    Sound { a with feed := f', vigils := before ++ v' :: after } := by
  have extend := ChangeFeed.Extends.of_same turn.same
  cases turn with
  | stays =>
      rw [← vigils]
      exact sound
  | leaves w waits none receivers next capacity events kept woken timedOut =>
      have holds : v.receivers = [w.receiver] := by rw [Vigil.receivers, waits]
      -- The receiver that is given back, and those of all others who listen.
      have rest : a.feed.receivers.keys.Perm (w.receiver :: (a.subscribers ++
          (before.flatMap Vigil.receivers ++ after.flatMap Vigil.receivers))) := by
        refine sound.live.trans ?_
        simp only [Audience.live, vigils, List.flatMap_append, List.flatMap_cons, holds,
          List.singleton_append]
        rw [← List.append_assoc, ← List.append_assoc]
        exact List.perm_middle
      have others : ∀ u, u ∈ before ++ after → u.Kept f' := by
        intro u mem
        have among : u ∈ a.vigils := by
          rw [vigils]
          simp only [List.mem_append, List.mem_cons] at mem ⊢
          tauto
        refine (sound.kept u among).extend extend fun r held => ?_
        rw [receivers]
        refine a.feed.receivers.get?_erase_ne fun is => ?_
        have nodup := rest.nodup_iff.1 a.feed.receivers.distinct
        refine (List.nodup_cons.1 nodup).1 (List.mem_append_right _ ?_)
        rw [← List.flatMap_append, ← is]
        exact List.mem_flatMap.2 ⟨u, mem, held⟩
      refine ⟨?_, ?_, ?_, ?_, ?_⟩
      · dsimp only [Audience.live]
        rw [receivers]
        simpa [none] using a.feed.receivers.keys_erase_perm rest
      · dsimp only
        rw [receivers, next, a.feed.receivers.keys_erase]
        exact fun r mem => sound.next r (List.mem_of_mem_erase mem)
      · intro u mem
        rcases List.mem_append.1 mem with mem | mem
        · exact others u (List.mem_append_left _ mem)
        · rcases List.mem_cons.1 mem with rfl | mem
          · exact kept
          · exact others u (List.mem_append_right _ mem)
      · rw [woken, sound.woken, vigils]
        exact (countP_replace _ before after v' (by simp [Vigil.isWoken, waits])).symm
      · rw [timedOut, sound.timedOut, vigils]
        exact (countP_replace _ before after v' (by simp [Vigil.isTimedOut, waits])).symm

theorem Sound.turn {i : Nat} {act : ChangeFeed → Vigil → ChangeFeed × Vigil} (sound : a.Sound)
    (turns : ∀ v : Vigil, v.Kept a.feed → v.Turn a.feed (act a.feed v).1 (act a.feed v).2) :
    (a.turn i act).Sound := by
  rcases a.turn_eq i act with same | ⟨before, v, after, vigils, -, is⟩
  · rw [same]
    exact sound
  · rw [is]
    exact sound.replace vigils (turns v (sound.kept v (by simp [vigils])))

/-- A new receiver is none of those that are there. -/
theorem Sound.fresh (sound : a.Sound) : a.feed.nextReceiver ∉ a.feed.receivers.keys :=
  fun mem => Nat.lt_irrefl _ (sound.next _ mem)

theorem Sound.keys_subscribe (sound : a.Sound) :
    a.feed.subscribe.1.receivers.keys = a.feed.nextReceiver :: a.feed.receivers.keys := by
  rw [← List.erase_of_not_mem sound.fresh]
  exact a.feed.receivers.keys_insert ..

theorem Sound.next_subscribe (sound : a.Sound) :
    ∀ r ∈ a.feed.subscribe.1.receivers.keys, r < a.feed.subscribe.1.nextReceiver := by
  intro r mem
  rw [sound.keys_subscribe] at mem
  rcases List.mem_cons.1 mem with rfl | mem
  · exact Nat.lt_succ_self _
  · exact Nat.lt_succ_of_lt (sound.next r mem)

/-- What a wait holds is among the receivers of the feed. -/
theorem Sound.mem_keys (sound : a.Sound) {v : Vigil} {r : Nat} (mem : v ∈ a.vigils)
    (holds : r ∈ v.receivers) : r ∈ a.feed.receivers.keys :=
  sound.live.mem_iff.2 (List.mem_append_right _ (List.mem_flatMap.2 ⟨v, mem, holds⟩))

theorem Sound.kept_subscribe (sound : a.Sound) :
    ∀ v ∈ a.vigils, v.Kept a.feed.subscribe.1 := by
  intro v mem
  refine (sound.kept v mem).extend ⟨rfl, List.prefix_rfl⟩ fun r holds => ?_
  refine a.feed.receivers.get?_insert_ne (fun is => sound.fresh ?_) _
  rw [← is]
  exact sound.mem_keys mem holds

/-- Whatever becomes of a subscriber's receiver, the waits are kept. -/
theorem Sound.kept_of_subscriber (sound : a.Sound) {receiver : Nat} {f' : ChangeFeed}
    (subscribed : receiver ∈ a.subscribers) (extend : a.feed.Extends f')
    (others : ∀ r, r ≠ receiver → f'.receivers.get? r = a.feed.receivers.get? r) :
    ∀ v ∈ a.vigils, v.Kept f' :=
  fun v mem => (sound.kept v mem).extend extend fun r holds =>
    others r (sound.ne_subscriber subscribed mem holds)

theorem Sound.unsubscribe (sound : a.Sound) {receiver : Nat}
    (subscribed : receiver ∈ a.subscribers) :
    Sound { a with
      feed := a.feed.unsubscribe receiver, subscribers := a.subscribers.erase receiver } := by
  have rest : a.feed.receivers.keys.Perm
      (receiver :: (a.subscribers.erase receiver ++ a.vigils.flatMap Vigil.receivers)) :=
    sound.live.trans ((List.perm_cons_erase subscribed).append_right _)
  refine ⟨a.feed.receivers.keys_erase_perm rest, ?_, ?_, sound.woken, sound.timedOut⟩
  · intro r mem
    rw [ChangeFeed.unsubscribe, Table.keys_erase] at mem
    exact sound.next r (List.mem_of_mem_erase mem)
  · exact sound.kept_of_subscriber subscribed ⟨rfl, List.prefix_rfl⟩ fun r ne =>
      a.feed.receivers.get?_erase_ne ne

theorem Sound.receive (sound : a.Sound) {receiver : Nat} (subscribed : receiver ∈ a.subscribers) :
    Sound { a with feed := (a.feed.receive receiver).1 } := by
  rcases a.feed.receive_cases receiver with same | ⟨there, cursor, moved⟩
  · rw [same]
    exact sound
  · rw [moved]
    have keys := a.feed.receivers.keys_insert_perm there cursor
    refine ⟨keys.trans sound.live, fun r mem => sound.next r (keys.mem_iff.1 mem), ?_, sound.woken,
      sound.timedOut⟩
    exact sound.kept_of_subscriber subscribed ⟨rfl, List.prefix_rfl⟩ fun r ne =>
      a.feed.receivers.get?_insert_ne ne cursor

theorem Sound.wait (sound : a.Sound) (maxWait : Nat) :
    Sound { a with
      feed := a.feed.subscribe.1
      vigils := a.vigils ++ [⟨a.feed.published, a.now, maxWait,
        .waiting ⟨a.feed.nextReceiver, maxWait, a.now + maxWait⟩⟩] } := by
  refine ⟨?_, sound.next_subscribe, ?_, ?_, ?_⟩
  · rw [sound.keys_subscribe, Audience.live, List.flatMap_append, ← List.append_assoc]
    exact (sound.live.cons _).trans (List.perm_append_singleton _ _).symm
  · intro v mem
    rcases List.mem_append.1 mem with mem | mem
    · exact sound.kept_subscribe v mem
    · rw [List.mem_singleton.1 mem]
      exact ⟨a.feed.receivers.get?_insert_self .., Nat.le_refl _, rfl⟩
  · rw [List.countP_append]
    exact sound.woken
  · rw [List.countP_append]
    exact sound.timedOut

theorem Sound.step (sound : a.Sound) (act : FeedAct) : (a.step act).Sound := by
  cases act with
  | publish e =>
      refine ⟨sound.live, sound.next, fun v mem => ?_, sound.woken, sound.timedOut⟩
      refine (sound.kept v mem).extend ⟨rfl, ?_⟩ fun _ _ => rfl
      simp [Audience.step, ChangeFeed.publish]
  | subscribe =>
      refine ⟨?_, sound.next_subscribe, sound.kept_subscribe, sound.woken, sound.timedOut⟩
      rw [Audience.step, sound.keys_subscribe]
      exact sound.live.cons _
  | unsubscribe receiver =>
      rw [Audience.step]
      split
      · rename_i subscribed
        exact sound.unsubscribe subscribed
      · exact sound
  | receive receiver =>
      rw [Audience.step]
      split
      · rename_i subscribed
        exact sound.receive subscribed
      · exact sound
  | wait maxWait => exact sound.wait maxWait
  | run i => exact sound.turn fun v kept => Vigil.turn_run a.now kept
  | leave i => exact sound.turn fun v _ => Vigil.turn_leave
  | advance milliseconds =>
      exact ⟨sound.live, sound.next, sound.kept, sound.woken, sound.timedOut⟩

theorem Sound.after (sound : a.Sound) (acts : List FeedAct) : (a.after acts).Sound := by
  induction acts generalizing a with
  | nil => exact sound
  | cons act rest ih => exact ih (sound.step act)

/-! ### What has been announced -/

theorem Sound.feed_turn {i : Nat} {act : ChangeFeed → Vigil → ChangeFeed × Vigil} (sound : a.Sound)
    (turns : ∀ v : Vigil, v.Kept a.feed → v.Turn a.feed (act a.feed v).1 (act a.feed v).2) :
    (a.turn i act).feed.capacity = a.feed.capacity ∧
      (a.turn i act).feed.events = a.feed.events := by
  rcases a.turn_eq i act with same | ⟨before, v, after, vigils, -, is⟩
  · rw [same]
    exact ⟨rfl, rfl⟩
  · rw [is]
    exact (turns v (sound.kept v (by simp [vigils]))).same

/-- Nothing is announced but by announcing it. -/
theorem Sound.feed_step (sound : a.Sound) (act : FeedAct) :
    (a.step act).feed.capacity = a.feed.capacity ∧
      (a.step act).feed.events.toList = a.feed.events.toList ++ act.told?.toList := by
  have quiet : ∀ f' : ChangeFeed, f'.capacity = a.feed.capacity ∧ f'.events = a.feed.events →
      f'.capacity = a.feed.capacity ∧ f'.events.toList = a.feed.events.toList ++ [] := by
    rintro f' ⟨capacity, events⟩
    exact ⟨capacity, by simp [events]⟩
  cases act with
  | publish e => exact ⟨rfl, Array.toList_push⟩
  | subscribe => exact quiet _ ⟨rfl, rfl⟩
  | unsubscribe receiver =>
      refine quiet _ ?_
      rw [Audience.step]
      split <;> exact ⟨rfl, rfl⟩
  | receive receiver =>
      refine quiet _ ?_
      rw [Audience.step]
      split
      · rcases a.feed.receive_cases receiver with same | ⟨-, cursor, moved⟩
        · simp [same]
        · simp [moved, ChangeFeed.advance]
      · exact ⟨rfl, rfl⟩
  | wait maxWait => exact quiet _ ⟨rfl, rfl⟩
  | run i => exact quiet _ (sound.feed_turn fun v kept => Vigil.turn_run a.now kept)
  | leave i => exact quiet _ (sound.feed_turn fun v _ => Vigil.turn_leave)
  | advance milliseconds => exact quiet _ ⟨rfl, rfl⟩

theorem Sound.feed_after (sound : a.Sound) (acts : List FeedAct) :
    (a.after acts).feed.capacity = a.feed.capacity ∧
      (a.after acts).feed.events.toList = a.feed.events.toList ++ acts.filterMap FeedAct.told? := by
  induction acts generalizing a with
  | nil => exact ⟨rfl, by simp [Audience.after]⟩
  | cons act rest ih =>
      obtain ⟨capacity, events⟩ := sound.feed_step act
      obtain ⟨capacity', events'⟩ := ih (sound.step act)
      refine ⟨capacity'.trans capacity, events'.trans ?_⟩
      rw [events, List.append_assoc]
      cases told : act.told? <;> simp [told]

/-! ### No change is missed

The parts are put together: what is announced stays, a wait stands where it began, and its turn
therefore finds what came since.
-/

theorem length_live (a : Audience) :
    a.live.length = a.subscribers.length + a.vigils.countP Vigil.isWaiting := by
  rw [Audience.live, List.length_append]
  congr 1
  induction a.vigils with
  | nil => rfl
  | cons v rest ih =>
      rw [List.flatMap_cons, List.length_append, ih, List.countP_cons, Nat.add_comm]
      obtain ⟨since, begun, maxWait, _ | _ | _⟩ := v <;> rfl

/-- Whoever waits and has its turn: what becomes of the wait then. -/
structure Answers (a : Audience) (i : Nat) (v : Vigil) : Prop where
  told : v.since ≤ a.feed.published
  woken : v.since < a.feed.published →
    ∃ e, a.feed.events[max v.since (a.feed.published - a.feed.ringSize)]? = some e ∧
      (a.step (.run i)).vigils[i]? = some { v with phase := .finished a.feed.published a.now (some e) }
  timedOut : v.since = a.feed.published → v.begun + v.maxWait ≤ a.now →
    (a.step (.run i)).vigils[i]? = some { v with phase := .finished a.feed.published a.now none }
  stays : v.since = a.feed.published → a.now < v.begun + v.maxWait → a.step (.run i) = a

theorem turn_of_at {i : Nat} {v : Vigil} (at_ : a.vigils[i]? = some v)
    (act : ChangeFeed → Vigil → ChangeFeed × Vigil) : a.turn i act
      = { a with feed := (act a.feed v).1, vigils := a.vigils.set i (act a.feed v).2 } := by
  simp only [turn, at_]

theorem Sound.answers (sound : a.Sound) {i : Nat} {v : Vigil} {w : Waiter}
    (at_ : a.vigils[i]? = some v) (waits : v.phase = .waiting w) : a.Answers i v := by
  have kept := sound.kept v (List.mem_of_getElem? at_)
  have turned : a.step (.run i) = _ := turn_of_at at_ (Vigil.run a.now)
  obtain ⟨inside, is⟩ := List.getElem?_eq_some_iff.1 at_
  refine ⟨?_, ?_, ?_, ?_⟩
  · rw [Vigil.Kept, waits] at kept
    exact kept.2.1
  · intro behind
    obtain ⟨e, oldest, ran⟩ := Vigil.run_of_behind a.now kept waits behind
    exact ⟨e, oldest, by simp [turned, ran, inside]⟩
  · intro past ended
    have ran := Vigil.run_of_past a.now kept waits past
    rw [if_pos ended] at ran
    simp [turned, ran, inside]
  · intro past early
    have ran := Vigil.run_of_past a.now kept waits past
    rw [if_neg (Nat.not_le.2 early)] at ran
    rw [turned, ran, ← is, List.set_getElem_self]

/-- What a feed of a capacity owes to everybody who listens, after these acts. -/
structure Attends (capacity : Nat) (acts : List FeedAct) (a : Audience) : Prop where
  ring : a.feed.ringSize = (max capacity 1).nextPowerOfTwo
  events : a.feed.events.toList = acts.filterMap FeedAct.told?
  published : a.feed.stats.published = acts.countP fun act => act.told?.isSome
  /-- A change is announced to everybody who listens. -/
  heard : ∀ name kind, (a.feed.publish name kind).2
    = a.subscribers.length + a.vigils.countP Vigil.isWaiting
  waiting : a.feed.stats.waiting = a.subscribers.length + a.vigils.countP Vigil.isWaiting
  wakeups : a.feed.stats.wakeups = a.vigils.countP Vigil.isWoken
  timeouts : a.feed.stats.timeouts = a.vigils.countP Vigil.isTimedOut
  ended : a.feed.stats.wakeups + a.feed.stats.timeouts = a.vigils.countP Vigil.isFinished
  /-- Waits that have ended, with a change and without one. -/
  woken : ∀ v ∈ a.vigils, ∀ seen ended e, v.phase = .finished seen ended (some e) →
    v.since < seen ∧ a.feed.events[max v.since (seen - a.feed.ringSize)]? = some e
  timedOut : ∀ v ∈ a.vigils, ∀ seen ended, v.phase = .finished seen ended none →
    seen = v.since ∧ v.begun + v.maxWait ≤ ended
  /-- Waits that have not. -/
  answers : ∀ i v w, a.vigils[i]? = some v → v.phase = .waiting w → a.Answers i v

theorem countP_finished (vigils : List Vigil) :
    vigils.countP Vigil.isWoken + vigils.countP Vigil.isTimedOut = vigils.countP Vigil.isFinished := by
  induction vigils with
  | nil => rfl
  | cons v rest ih =>
      simp only [List.countP_cons]
      obtain ⟨since, begun, maxWait, _ | ⟨_, _, _ | _⟩ | _⟩ := v <;>
        simp [Vigil.isWoken, Vigil.isTimedOut, Vigil.isFinished] <;> omega

/-- Whoever waits for a change misses none, whatever else happens around the feed: who goes on
after further changes is given the oldest of them that the ring still has, however many have been
lost, and who is told that there was none has waited to the end without one.  Every wait that is over
has been counted once. -/
theorem no_change_missed (capacity : Nat) (acts : List FeedAct) :
    Attends capacity acts ((start capacity).after acts) := by
  have sound := (sound_start capacity).after acts
  obtain ⟨kept, told⟩ := (sound_start capacity).feed_after acts
  generalize (start capacity).after acts = a at sound kept told
  have events : a.feed.events.toList = acts.filterMap FeedAct.told? := told
  have heard : a.feed.receivers.size
      = a.subscribers.length + a.vigils.countP Vigil.isWaiting := by
    rw [← a.length_live, ← sound.live.length_eq]
    exact (List.length_map _).symm
  refine ⟨?_, events, ?_, fun _ _ => heard, heard, sound.woken, sound.timedOut, ?_, ?_, ?_,
    fun i v w at_ waits => sound.answers at_ waits⟩
  · rw [ChangeFeed.ringSize, kept]
    rfl
  · show a.feed.events.size = _
    rw [← Array.length_toList, events, List.length_filterMap_eq_countP]
  · show a.feed.wakeups + a.feed.timeouts = _
    rw [sound.woken, sound.timedOut, countP_finished]
  · intro v mem seen ended e phase
    have kept := sound.kept v mem
    rw [Vigil.Kept, phase] at kept
    exact kept
  · intro v mem seen ended phase
    have kept := sound.kept v mem
    rw [Vigil.Kept, phase] at kept
    exact kept

/-- Five changes come during a wait, and the ring has four places: the first of them is lost. -/
example : ((start 3).after ([.wait 9] ++ ["a", "b", "c", "d", "e"].map (.publish ⟨·, .stored⟩)
    ++ [.run 0])).vigils.map Vigil.phase = [.finished 5 0 (some ⟨"b", .stored⟩)] := by
  decide +kernel

end Audience

end MountSync
