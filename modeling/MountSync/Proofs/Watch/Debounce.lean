/-
No edit is lost while a watcher runs.

A watcher goes from one waking to the next: an event, trouble, the end of a quiet period, a word
about the shutdown, in any order.  The mount may be another one each time, and while names are looked
up it may change from one name to the next.

Two things are carried along.  What is pending ascends, so no name is there twice, and a batch, which
is a part of it, ascends as well.  And the timer runs exactly while something is pending, so a name
that was touched waits for the end of a quiet period and is looked up then; nothing but this takes it
away.
-/
import MountSync.Proofs.Text
import MountSync.Watch.Debounce

namespace MountSync.Watch

/-! ### Ascending names

The pending names are kept in order as they are added, so the order is an invariant and nothing is
ever sorted.
-/

theorem mem_insertName {name other : String} {names : List String} :
    other ∈ insertName name names ↔ other = name ∨ other ∈ names := by
  induction names with
  | nil => simp [insertName]
  | cons first rest ih =>
      unfold insertName
      split
      · rename_i same
        simp [same]
      · split
        · exact List.mem_cons
        · rw [List.mem_cons, ih, List.mem_cons, or_left_comm]

theorem insertName_ascends (name : String) {names : List String}
    (ascends : names.Pairwise (· < ·)) : (insertName name names).Pairwise (· < ·) := by
  induction names with
  | nil => simp [insertName]
  | cons first rest ih =>
      obtain ⟨least, rest_ascends⟩ := List.pairwise_cons.1 ascends
      unfold insertName
      split
      · exact ascends
      · rename_i differs
        split
        · rename_i less
          refine List.pairwise_cons.2 ⟨fun other mem => ?_, ascends⟩
          rcases List.mem_cons.1 mem with rfl | mem
          · exact less
          · exact String.lt_trans less (least other mem)
        · rename_i notLess
          have greater : first < name :=
            String.not_le.1 fun le => differs (String.le_antisymm le (String.not_lt.1 notLess))
          refine List.pairwise_cons.2 ⟨fun other mem => ?_, ih rest_ascends⟩
          rcases mem_insertName.1 mem with rfl | mem
          · exact greater
          · exact least other mem

/-- Adds names one after another. -/
def insertNames (pending names : List String) : List String :=
  names.foldl (fun pending name => insertName name pending) pending

theorem mem_insertNames {name : String} {names pending : List String} :
    name ∈ insertNames pending names ↔ name ∈ pending ∨ name ∈ names := by
  induction names generalizing pending with
  | nil => simp [insertNames]
  | cons first rest ih =>
      rw [insertNames, List.foldl_cons, ← insertNames, ih, mem_insertName, List.mem_cons,
        or_comm (a := name = first), or_assoc]

theorem insertNames_ascends (names : List String) {pending : List String}
    (ascends : pending.Pairwise (· < ·)) : (insertNames pending names).Pairwise (· < ·) := by
  induction names generalizing pending with
  | nil => exact ascends
  | cons first rest ih => exact ih (insertName_ascends first ascends)

/-! ### Looking names up

Each name is looked up in the mount as it is at that time, and these may all be different.
-/

/-- Whether a name leads to something that is not a file. -/
def isOther (m : Mount) (name : String) : Bool :=
  match m.locate name with
  | .ok (_, .file _) => false
  | .ok _ => true
  | .error _ => false

theorem changeOf_isNone (m : Mount) (name : String) :
    (changeOf m name).isNone = isOther m name := by
  unfold changeOf isOther
  split <;> simp_all

theorem name_of_changeOf {m : Mount} {name : String} {change : LocalChange}
    (is : changeOf m name = some change) : change.name = name := by
  unfold changeOf at is
  split at is <;> cases is <;> rfl

/-- A batch tells of all names that lead to a file or to nothing. -/
theorem names_settleEach (found : String → Mount) (names : List String) :
    (settleEach found names).map LocalChange.name
      = names.filter fun name => !isOther (found name) name := by
  induction names with
  | nil => rfl
  | cons name rest ih =>
      rw [settleEach, List.filterMap_cons, List.filter_cons, ← changeOf_isNone, ← ih]
      cases is : changeOf (found name) name with
      | none => rfl
      | some change => simp [settleEach, name_of_changeOf is]

/-- A batch of ascending names ascends, byte for byte, so no name is there twice. -/
theorem settleEach_ascends (found : String → Mount) {names : List String}
    (ascends : names.Pairwise (· < ·)) :
    ((settleEach found names).map fun change => Frame.textBytes change.name).Pairwise (· < ·) := by
  have part : ((settleEach found names).map LocalChange.name).Pairwise (· < ·) := by
    rw [names_settleEach]
    exact ascends.sublist List.filter_sublist
  exact List.pairwise_map.2 ((List.pairwise_map.1 part).imp Frame.textBytes_lt)

theorem settleEach_ne_nil {found : String → Mount} {names : List String} {name : String}
    (mem : name ∈ names) (told : isOther (found name) name = false) :
    settleEach found names ≠ [] := by
  intro none
  have listed : name ∈ names.filter fun name => !isOther (found name) name :=
    List.mem_filter.2 ⟨mem, by simp [told]⟩
  rw [← names_settleEach, none] at listed
  exact nomatch listed

/-! ### One waking -/

/-- What a watcher is woken by, and what it finds then. -/
structure Waking where
  signal : Signal
  now : Nat
  mount : Mount
  /-- The mount as it is when a name is looked up. -/
  found : String → Mount
  /-- Whether somebody takes a batch. -/
  listening : Bool

/-- The names that an event touched. -/
def Waking.reported (current : Place) (mount : Path) (i : Waking) : List String :=
  match i.signal with
  | .event e => touchedNames i.mount.tree current mount e
  | _ => []

namespace Watcher

/-- Whether a waking is the end of a quiet period, at which names are looked up. -/
def settles (w : Watcher) (i : Waking) : Bool :=
  w.running && i.signal = .timer && w.timer.any fun due => due ≤ i.now

/-- The names that are looked up then. -/
def settled (w : Watcher) (i : Waking) : List String := if w.settles i then w.pending else []

/-- The names that the watcher is told of.  One that has ended takes no event any more. -/
def told (current : Place) (mount : Path) (w : Watcher) (i : Waking) : List String :=
  if w.running then i.reported current mount else []

/-- Takes the step of one waking. -/
def wake (current : Place) (mount : Path) (w : Watcher) (i : Waking) :
    Watcher × Option (List LocalChange) :=
  w.step current mount i.mount i.found i.now i.listening i.signal

variable {current : Place} {mount : Path} {w : Watcher} {i : Waking}

/-- A waking: names are looked up, or the names that are told of are added to what is pending, and
then the timer begins anew, or the watcher ends. -/
theorem wake_cases (current : Place) (mount : Path) (i : Waking) (running : w.running = true) :
    (w.settles i = true ∧ w.wake current mount i = w.flush i.found i.listening) ∨
    (w.settles i = false ∧
      w.wake current mount i = (w.touch i.now (i.reported current mount), none)) ∨
    (w.settles i = false ∧ i.reported current mount = [] ∧
      w.wake current mount i = ({ w with running := false }, none)) := by
  rw [wake]
  cases settles : w.settles i with
  | true =>
      simp only [Watcher.settles, Bool.and_eq_true, decide_eq_true_eq, Option.any_eq_true]
        at settles
      obtain ⟨⟨-, timer⟩, due, set, passed⟩ := settles
      exact Or.inl ⟨rfl, by simp [step, running, timer, set, passed]⟩
  | false =>
      refine Or.inr ?_
      -- Trouble, a timer that is not due and a shutdown that is called off touch no name.
      have silent : ∀ names : List String, names = [] → w.touch i.now names = w := fun _ none =>
        if_pos none
      cases signal : i.signal with
      | event e => exact Or.inl ⟨rfl, by simp [step, running, Waking.reported, signal]⟩
      | trouble => exact Or.inl ⟨rfl, by simp [step, running, Waking.reported, signal, silent]⟩
      | sourceGone =>
          exact Or.inr ⟨rfl, by simp [Waking.reported, signal], by simp [step, running]⟩
      | timer =>
          refine Or.inl ⟨rfl, ?_⟩
          cases set : w.timer with
          | none => simp [step, running, Waking.reported, signal, silent, set]
          | some due =>
              have early : ¬ due ≤ i.now := by
                simpa [Watcher.settles, running, signal, set] using settles
              simp [step, running, Waking.reported, signal, silent, set, early]
      | shutdown value =>
          by_cases stays : value = some false
          · exact Or.inl ⟨rfl, by simp [step, running, Waking.reported, signal, silent, stays]⟩
          · exact Or.inr ⟨rfl, by simp [Waking.reported, signal], by simp [step, running, stays]⟩

/-- Who has ended is woken by nothing. -/
theorem wake_of_ended (ended : w.running = false) : w.wake current mount i = (w, none) := by
  simp [wake, step, ended]

/-- When names have been looked up nothing is pending, whether or not there is a batch. -/
theorem flush_quiet (w : Watcher) (found : String → Mount) (listening : Bool) :
    (w.flush found listening).1.pending = [] ∧ (w.flush found listening).1.timer = none := by
  unfold flush
  dsimp only
  split
  · exact ⟨rfl, rfl⟩
  · split <;> exact ⟨rfl, rfl⟩

/-! ### What is true of a watcher

If the timer ran without anything pending, a batch would be empty; if something were pending without
a timer, it would stay there.
-/

/-- What is pending ascends, and the timer runs exactly while something is pending. -/
structure Tidy (w : Watcher) : Prop where
  ascends : w.pending.Pairwise (· < ·)
  armed : w.timer.isSome = true ↔ w.pending ≠ []

theorem tidy_start : start.Tidy := ⟨List.Pairwise.nil, by simp [start]⟩

theorem pending_touch (w : Watcher) (now : Nat) (names : List String) :
    (w.touch now names).pending = insertNames w.pending names := by
  unfold touch
  split
  · rename_i none
    rw [none]
    rfl
  · rfl

theorem Tidy.touch (tidy : w.Tidy) (now : Nat) (names : List String) :
    (w.touch now names).Tidy := by
  refine ⟨?_, ?_⟩
  · rw [pending_touch]
    exact insertNames_ascends names tidy.ascends
  · rw [pending_touch, Watcher.touch]
    split
    · rename_i none
      rw [none]
      exact tidy.armed
    · rename_i some
      obtain ⟨name, mem⟩ := List.exists_mem_of_ne_nil names some
      refine iff_of_true rfl (List.ne_nil_of_mem (a := name) ?_)
      exact mem_insertNames.2 (Or.inr mem)

theorem Tidy.wake (tidy : w.Tidy) (i : Waking) : (w.wake current mount i).1.Tidy := by
  cases running : w.running with
  | false =>
      rw [wake_of_ended running]
      exact tidy
  | true =>
      rcases wake_cases current mount i running with ⟨-, is⟩ | ⟨-, is⟩ | ⟨-, -, is⟩
      · obtain ⟨pending, timer⟩ := w.flush_quiet i.found i.listening
        rw [is]
        exact ⟨by simp [pending], by simp [pending, timer]⟩
      · rw [is]
        exact tidy.touch i.now _
      · rw [is]
        exact ⟨tidy.ascends, tidy.armed⟩

/-- All wakings, one after another. -/
def run (current : Place) (mount : Path) (w : Watcher) (wakings : List Waking) : Watcher :=
  wakings.foldl (fun w i => (w.wake current mount i).1) w

theorem run_append (w : Watcher) (before after : List Waking) :
    w.run current mount (before ++ after) = (w.run current mount before).run current mount after :=
  List.foldl_append

theorem Tidy.run (tidy : w.Tidy) (wakings : List Waking) : (w.run current mount wakings).Tidy := by
  induction wakings generalizing w with
  | nil => exact tidy
  | cons i rest ih => exact ih (tidy.wake i)

/-! ### No name is lost

A pending name either stays where it is or is looked up, and this by one step of the watcher and by
any number of them.
-/

/-- A name that a watcher is told of is pending afterwards. -/
theorem pending_of_told {name : String} (mem : name ∈ w.told current mount i) :
    name ∈ (w.wake current mount i).1.pending := by
  unfold told at mem
  split at mem
  · rename_i running
    rcases wake_cases current mount i running with
      ⟨settles, -⟩ | ⟨-, is⟩ | ⟨-, none, -⟩
    · have timer : i.signal = .timer := by
        simp only [Watcher.settles, Bool.and_eq_true, decide_eq_true_eq] at settles
        exact settles.1.2
      simp [Waking.reported, timer] at mem
    · rw [is, pending_touch]
      exact mem_insertNames.2 (Or.inr mem)
    · rw [none] at mem
      exact nomatch mem
  · exact nomatch mem

/-- A name that is pending stays so until it is looked up. -/
theorem pending_or_settled_wake (current : Place) (mount : Path) {name : String}
    (pending : name ∈ w.pending) (i : Waking) :
    name ∈ (w.wake current mount i).1.pending ∨ name ∈ w.settled i := by
  cases running : w.running with
  | false =>
      rw [wake_of_ended running]
      exact Or.inl pending
  | true =>
      rcases wake_cases current mount i running with
        ⟨settles, -⟩ | ⟨-, is⟩ | ⟨-, -, is⟩
      · refine Or.inr ?_
        rw [settled, if_pos settles]
        exact pending
      · refine Or.inl ?_
        rw [is, pending_touch]
        exact mem_insertNames.2 (Or.inl pending)
      · rw [is]
        exact Or.inl pending

/-- Whether a name is looked up in the course of some wakings. -/
def Settles (current : Place) (mount : Path) (w : Watcher) (wakings : List Waking)
    (name : String) : Prop :=
  ∃ before i after, wakings = before ++ i :: after ∧
    name ∈ (w.run current mount before).settled i

theorem pending_or_settled {name : String} (pending : name ∈ w.pending) (wakings : List Waking) :
    name ∈ (w.run current mount wakings).pending ∨ w.Settles current mount wakings name := by
  -- On the wakings: the first one looks the name up, or hands it on as pending to the rest.
  induction wakings generalizing w with
  | nil => exact Or.inl pending
  | cons i rest ih =>
      rcases pending_or_settled_wake current mount pending i with still | now
      · rcases ih still with last | ⟨before, j, after, rest_eq, later⟩
        · exact Or.inl last
        · exact Or.inr ⟨i :: before, j, after, by rw [rest_eq, List.cons_append], later⟩
      · exact Or.inr ⟨[], i, rest, rfl, now⟩

/-! ### Batches -/

/-- A batch is sent when names are looked up, somebody takes it and there is something in it. -/
theorem wake_eq_some_iff {batch : List LocalChange} :
    (w.wake current mount i).2 = some batch ↔
      w.settles i = true ∧ i.listening = true ∧ settleEach i.found w.pending ≠ [] ∧
        batch = settleEach i.found w.pending := by
  cases running : w.running with
  | false => simp [wake_of_ended running, settles, running]
  | true =>
      rcases wake_cases current mount i running with
        ⟨settles, is⟩ | ⟨settles, is⟩ | ⟨settles, -, is⟩
      · rw [is, flush]
        by_cases empty : settleEach i.found w.pending = []
        · simp [settles, empty]
        · cases listening : i.listening <;> simp [settles, empty, eq_comm]
      · simp [is, settles]
      · simp [is, settles]

/-- What a watcher has kept of all that it was told of, and sent, in the course of these wakings. -/
structure Keeps (current : Place) (mount : Path) (wakings : List Waking) : Prop where
  /-- A name is pending, or was looked up after the event that touched it. -/
  kept : ∀ before i after, wakings = before ++ i :: after →
    ∀ name ∈ (start.run current mount before).told current mount i,
      name ∈ (start.run current mount wakings).pending ∨
        (start.run current mount (before ++ [i])).Settles current mount after name
  armed : (start.run current mount wakings).timer.isSome = true ↔
    (start.run current mount wakings).pending ≠ []
  /-- A batch tells, in ascending order, of the names that were looked up and are those of a file or
  of nothing. -/
  batches : ∀ i batch, ((start.run current mount wakings).wake current mount i).2 = some batch →
    ((batch.map fun change => Frame.textBytes change.name).Pairwise (· < ·)) ∧
      batch.map LocalChange.name
        = ((start.run current mount wakings).settled i).filter fun name =>
            !isOther (i.found name) name
  /-- It is sent if there is such a name and somebody takes it. -/
  sent : ∀ i, i.listening = true →
    (∃ name ∈ (start.run current mount wakings).settled i, isOther (i.found name) name = false) →
      ∃ batch, ((start.run current mount wakings).wake current mount i).2 = some batch

/-- A watcher loses no edit, in whatever order it is woken and whatever becomes of the mount
meanwhile.  This holds for every event that touches a name, so for the last one as well. -/
theorem no_edit_lost (current : Place) (mount : Path) (wakings : List Waking) :
    Keeps current mount wakings := by
  have tidy : (start.run current mount wakings).Tidy := tidy_start.run wakings
  refine ⟨?_, tidy.armed, ?_, ?_⟩
  · intro before i after split name told
    have pending : name ∈ (start.run current mount (before ++ [i])).pending := by
      rw [run_append]
      exact pending_of_told told
    rw [split, ← List.singleton_append, ← List.append_assoc, run_append]
    exact pending_or_settled pending after
  · intro i batch is
    obtain ⟨settles, -, -, rfl⟩ := wake_eq_some_iff.1 is
    rw [settled, if_pos settles, names_settleEach]
    exact ⟨settleEach_ascends i.found tidy.ascends, rfl⟩
  · rintro i listening ⟨name, mem, told⟩
    unfold settled at mem
    split at mem
    · rename_i settles
      exact ⟨_, wake_eq_some_iff.2 ⟨settles, listening, settleEach_ne_nil mem told, rfl⟩⟩
    · exact nomatch mem

end Watcher

end MountSync.Watch
