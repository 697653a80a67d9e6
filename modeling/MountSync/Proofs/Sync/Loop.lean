/-
When the loop that keeps a mount in step ends.

Rounds succeed and fail, pauses run out, the switch is turned and let go of, and the loop takes
notice of any of it in whatever order it happens to.  `LoopStep` says once what each event does;
everything below is a case analysis of it, and an induction on the events.

A loop ends in two ways.  It looks at the switch, and the switch is on.  Or it takes notice, in
the middle of a round, that nobody holds the switch any more; then it ends although it was never
told to.  A pause is ended by the same notice, but the loop goes on after it.
-/
import MountSync.Sync.Loop

namespace MountSync

namespace SyncLoop

/-! ### What an event does -/

/-- What an event makes of a loop, one case for each way it can go on. -/
inductive LoopStep (l : SyncLoop) : LoopEvent → SyncLoop → Prop
  | turned (value : Bool) : l.switch.held = true →
      LoopStep l (.turn value) { l with switch := { l.switch with value, news := true } }
  | letGo : l.switch.held = true →
      LoopStep l .letGo { l with switch := { l.switch with held := false } }
  | ended : l.phase = .looking → l.switch.value = true → LoopStep l .look (l.goTo .stopped)
  | begun : l.phase = .looking → l.switch.value = false →
      LoopStep l .look { l with phase := .polling, begun := l.begun + 1 }
  | succeeded : l.phase = .polling → LoopStep l (.roundOver true) (l.goTo .looking)
  | failed : l.phase = .polling → LoopStep l (.roundOver false) (l.goTo .pausing)
  | resumed : l.phase = .pausing → LoopStep l .pauseOver (l.goTo .looking)
  | noticed : l.phase = .polling ∨ l.phase = .pausing → l.switch.news = true →
      LoopStep l .notice
        { l with phase := .looking, switch := { l.switch with news := false } }
  | givenUp : l.phase = .polling → l.switch.news = false → l.switch.held = false →
      LoopStep l .notice (l.goTo .stopped)
  | hurried : l.phase = .pausing → l.switch.news = false → l.switch.held = false →
      LoopStep l .notice (l.goTo .looking)

variable {l l' : SyncLoop} {e : LoopEvent} {events before after : List LoopEvent}

theorem takeNotice_cases {ifLetGo : LoopPhase} (h : l.takeNotice ifLetGo = some l') :
    (l.switch.news = true ∧
      l' = { l with phase := .looking, switch := { l.switch with news := false } }) ∨
    (l.switch.news = false ∧ l.switch.held = false ∧ l' = l.goTo ifLetGo) := by
  unfold takeNotice at h
  split at h
  · next news => exact .inl ⟨news, (Option.some.inj h).symm⟩
  · next news =>
    split at h
    · exact absurd h nofun
    · next held => exact .inr ⟨by simpa using news, by simpa using held, (Option.some.inj h).symm⟩

/-- Everything a loop can do. -/
theorem step_cases (h : l.step e = some l') : LoopStep l e l' := by
  unfold step at h
  split at h
  · split at h
    · next held => cases h; exact .turned _ held
    · exact absurd h nofun
  · split at h
    · next held => cases h; exact .letGo held
    · exact absurd h nofun
  · next looking =>
    split at h
    · next on => cases h; exact .ended looking on
    · next off => cases h; exact .begun looking (by simpa using off)
  · next polling => cases h; exact .succeeded polling
  · next polling => cases h; exact .failed polling
  · next pausing => cases h; exact .resumed pausing
  · next polling =>
    obtain ⟨news, rfl⟩ | ⟨none, gone, rfl⟩ := takeNotice_cases h
    · exact .noticed (.inl polling) news
    · exact .givenUp polling none gone
  · next pausing =>
    obtain ⟨news, rfl⟩ | ⟨none, gone, rfl⟩ := takeNotice_cases h
    · exact .noticed (.inr pausing) news
    · exact .hurried pausing none gone
  · exact absurd h nofun

/-- The events that end a loop: a look at a switch that is on, and, in a round, the notice that
nobody holds the switch. -/
def Ends (l : SyncLoop) (e : LoopEvent) : Prop :=
  e = .look ∧ l.phase = .looking ∧ l.switch.value = true ∨
  e = .notice ∧ l.phase = .polling ∧ l.switch.news = false ∧ l.switch.held = false

/-- There are no other ways to end, and these do. -/
theorem ends_iff (running : l.phase ≠ .stopped) :
    (∃ l', l.step e = some l' ∧ l'.phase = .stopped) ↔ l.Ends e := by
  constructor
  · rintro ⟨l', moved, stopped⟩
    cases step_cases moved with
    | turned | letGo => exact absurd stopped running
    | ended looking on => exact .inl ⟨rfl, looking, on⟩
    | givenUp polling none gone => exact .inr ⟨rfl, polling, none, gone⟩
    | begun | succeeded | failed | resumed | noticed | hurried => exact absurd stopped nofun
  · rintro (⟨rfl, looking, on⟩ | ⟨rfl, polling, none, gone⟩)
    · exact ⟨l.goTo .stopped, by simp [step, looking, on], rfl⟩
    · exact ⟨l.goTo .stopped, by simp [step, polling, takeNotice, none, gone], rfl⟩

/-! ### The events of a run

A loop reads its switch at some times and not at others, so what it was told is told by the events
and not by the phase.
-/

theorem run_cons_cases (h : l.run (e :: after) = some l') :
    ∃ l₁, l.step e = some l₁ ∧ l₁.run after = some l' :=
  Option.bind_eq_some_iff.mp h

theorem run_append (l : SyncLoop) (before after : List LoopEvent) :
    l.run (before ++ after) = (l.run before).bind fun l₁ => l₁.run after := by
  induction before generalizing l with
  | nil => rfl
  | cons e before ih =>
    show (l.step e).bind (fun l₁ => l₁.run (before ++ after))
      = ((l.step e).bind fun l₁ => l₁.run before).bind fun l₁ => l₁.run after
    rw [Option.bind_assoc]
    exact congrArg _ (funext ih)

/-- A run goes through the loop that its beginning leaves. -/
theorem run_append_cases (h : l.run (before ++ after) = some l') :
    ∃ l₁, l.run before = some l₁ ∧ l₁.run after = some l' := by
  rw [run_append] at h
  exact Option.bind_eq_some_iff.mp h

/-- How these events leave a switch that was on or off before them: as it was last turned. -/
def leftOn (on : Bool) : List LoopEvent → Bool
  | [] => on
  | .turn value :: rest => leftOn value rest
  | _ :: rest => leftOn on rest

/-- The switch has the value it was last given. -/
theorem value_run (ran : l.run events = some l') :
    l'.switch.value = leftOn l.switch.value events := by
  induction events generalizing l with
  | nil => cases ran; rfl
  | cons e events ih =>
    obtain ⟨l₁, moved, ran⟩ := run_cons_cases ran
    rw [ih ran]
    cases step_cases moved <;> rfl

/-- A switch that nobody holds was let go of, if somebody held it at first. -/
theorem letGo_of_run (ran : l.run events = some l') (held : l.switch.held = true)
    (gone : l'.switch.held = false) : .letGo ∈ events := by
  induction events generalizing l with
  | nil => cases ran; exact absurd gone (by simp [held])
  | cons e events ih =>
    obtain ⟨l₁, moved, ran⟩ := run_cons_cases ran
    cases step_cases moved with
    | letGo => exact .head _
    | turned | ended | begun | succeeded | failed | resumed | noticed | givenUp | hurried =>
      exact .tail _ (ih ran held)

/-- A run that ends has an event that ends it. -/
theorem ended_by (ran : l.run events = some l') (running : l.phase ≠ .stopped)
    (stopped : l'.phase = .stopped) :
    ∃ before e after l₁, events = before ++ e :: after ∧ l.run before = some l₁ ∧ l₁.Ends e := by
  induction events generalizing l with
  | nil => cases ran; exact absurd stopped running
  | cons e events ih =>
    obtain ⟨l₁, moved, ran⟩ := run_cons_cases ran
    by_cases done : l₁.phase = .stopped
    · exact ⟨[], e, events, l, rfl, rfl, (ends_iff running).mp ⟨l₁, moved, done⟩⟩
    · obtain ⟨before, e', after, l₂, rfl, ran, ends⟩ := ih ran done
      refine ⟨e :: before, e', after, l₂, rfl, ?_, ends⟩
      exact Option.bind_eq_some_iff.mpr ⟨l₁, moved, ran⟩

/-! ### No round is begun while the switch is on -/

/-- An event begins a round only if it is a look at a switch that is off. -/
theorem begun_step (moved : l.step e = some l') (on : l.switch.value = true) :
    l'.begun = l.begun := by
  cases step_cases moved with
  | begun _ off => exact absurd off (by simp [on])
  | turned | letGo | ended | succeeded | failed | resumed | noticed | givenUp | hurried => rfl

theorem begun_run (ran : l.run events = some l') (on : l.switch.value = true)
    (kept : .turn false ∉ events) : l'.begun = l.begun := by
  induction events generalizing l with
  | nil => cases ran; rfl
  | cons e events ih =>
    obtain ⟨l₁, moved, ran⟩ := run_cons_cases ran
    obtain ⟨first, later⟩ := List.ne_and_not_mem_of_not_mem_cons kept
    have still : l₁.switch.value = true := by
      cases step_cases moved with
      | turned value => cases value with
        | true => rfl
        | false => exact absurd rfl first
      | letGo | ended | begun | succeeded | failed | resumed | noticed | givenUp | hurried =>
        exact on
    rw [ih ran still later, begun_step moved on]

/-! ### A failed round

A failure does not end the loop; it only makes it pause.
-/

/-- Between a failed round and the next look at the switch a loop pauses or is about to look:
whatever it takes notice of, it does not end. -/
theorem recovers_run (ran : l.run events = some l')
    (recovers : l.phase = .pausing ∨ l.phase = .looking) (noLook : .look ∉ events) :
    l'.phase = .pausing ∨ l'.phase = .looking := by
  induction events generalizing l with
  | nil => cases ran; exact recovers
  | cons e events ih =>
    obtain ⟨l₁, moved, ran⟩ := run_cons_cases ran
    obtain ⟨first, later⟩ := List.ne_and_not_mem_of_not_mem_cons noLook
    refine ih ran ?_ later
    cases step_cases moved with
    | turned | letGo => exact recovers
    | ended | begun => exact absurd rfl first
    | succeeded polling | failed polling | givenUp polling =>
      exact absurd recovers (by simp [polling])
    | resumed | noticed | hurried => exact .inr rfl

/-- A loop that pauses or is about to look begins another round, with the pause over, if the
switch is off. -/
theorem recovers_begins (recovers : l.phase = .pausing ∨ l.phase = .looking)
    (off : l.switch.value = false) :
    ∃ pause,
      l.run (pause ++ [.look]) = some { l with phase := .polling, begun := l.begun + 1 } := by
  rcases recovers with pausing | looking
  · exact ⟨[.pauseOver], by simp [run, step, pausing, goTo, off]⟩
  · exact ⟨[], by simp [run, step, looking, off]⟩

/--
**A loop ends because it was told to, or because nobody is left to tell it.**  It ends at a look
at the switch after the switch was left on, or at a notice after the switch was let go of; a
round that fails does not end it, and it can go on to another one; and from when the switch is
on no round is begun any more, unless it is turned off again.
-/
theorem ends_told_or_alone (ran : start.run events = some l) :
    (l.phase = .stopped → ∃ before after,
      events = before ++ .look :: after ∧ leftOn false before = true ∨
      events = before ++ .notice :: after ∧ .letGo ∈ before) ∧
    (∀ before after, events = before ++ .roundOver false :: after → .look ∉ after →
      l.phase ≠ .stopped ∧
      (leftOn false events = false → ∃ pause,
        l.run (pause ++ [.look]) = some { l with phase := .polling, begun := l.begun + 1 })) ∧
    (∀ before after l₁, events = before ++ after → start.run before = some l₁ →
      leftOn false before = true → .turn false ∉ after → l.begun = l₁.begun) := by
  refine ⟨fun stopped => ?_, fun before after split noLook => ?_,
    fun before after l₁ split first on kept => ?_⟩
  · obtain ⟨before, e, after, l₁, rfl, first, ends⟩ := ended_by ran nofun stopped
    refine ⟨before, after, ?_⟩
    rcases ends with ⟨rfl, -, on⟩ | ⟨rfl, -, -, gone⟩
    · exact .inl ⟨rfl, (value_run first).symm.trans on⟩
    · exact .inr ⟨rfl, letGo_of_run first rfl gone⟩
  · have recovers : l.phase = .pausing ∨ l.phase = .looking := by
      subst split
      obtain ⟨l₁, -, later⟩ := run_append_cases ran
      obtain ⟨l₂, moved, later⟩ := run_cons_cases later
      refine recovers_run later ?_ noLook
      cases step_cases moved with
      | failed => exact .inl rfl
    refine ⟨by rcases recovers with h | h <;> simp [h], fun off => ?_⟩
    exact recovers_begins recovers ((value_run ran).trans off)
  · subst split
    obtain ⟨l₂, again, later⟩ := run_append_cases ran
    obtain rfl : l₁ = l₂ := Option.some.inj (first.symm.trans again)
    exact begun_run later ((value_run first).trans on) kept

/-- A round fails, another one is begun, and the switch is turned on in the middle of it: the
loop ends without a third. -/
theorem failed_then_told_ends :
    let before := [.look, .roundOver false, .pauseOver, .look, .turn true]
    let events := before ++ [.notice, .look]
    (start.run events).map (·.phase) = some .stopped ∧
    ∃ l l₁, start.run events = some l ∧ start.run before = some l₁ ∧ l₁.begun = 2 ∧
      l.begun = l₁.begun := by
  have ran : start.run ([.look, .roundOver false, .pauseOver, .look, .turn true]
      ++ [.notice, .look]) = some ⟨.stopped, ⟨true, false, true⟩, 2⟩ := rfl
  obtain ⟨-, -, kept⟩ := ends_told_or_alone ran
  exact ⟨rfl, _, _, ran, rfl, rfl, kept _ _ _ rfl rfl rfl (by decide)⟩

/-- A loop ends that was never told to: whoever held the switch let go of it during a round. -/
theorem may_end_untold :
    ¬ ∀ events l, start.run events = some l → l.phase = .stopped → .turn true ∈ events := by
  intro always
  have told := always [.look, .letGo, .notice] _ rfl rfl
  exact absurd told (by decide)

end SyncLoop

end MountSync
