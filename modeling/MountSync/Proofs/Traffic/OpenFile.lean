/-
What an open file has in it.

A fetch opens its file once and goes on reading it, whatever its name comes to mean.  A store never
writes to a file that is there: it makes a new one, with a number that no other file has or will
have, and gives it the name when it is complete.  So what has the number of an open file at the
place of an open file is that very file, and its content is what it was.

`Intact` says what this rests on.  It speaks of the mount, the temporary files of the stores and
the files that the fetches have open, and of nothing else.
-/
import MountSync.Proofs.Mount
import MountSync.Proofs.Traffic.Run

namespace MountSync

/-! ### What a step of a fetch can do

A step says which phase follows on which, and what it has seen of the mount on the way.
-/

/-- What a step makes of a fetch that is about `name`, in a mount as it is at that moment. -/
inductive FetchStep (m : Mount) (name : String) (limit : Nat) : FetchPhase → FetchPhase → Prop
  | looked {record : FileRecord} (h : m.statFile name = .ok (some record)) :
      FetchStep m name limit .arrived (.found record)
  | decided {record : FileRecord} : FetchStep m name limit (.found record) (.opening record)
  | declined {record : FileRecord} {failure : Failure} :
      FetchStep m name limit (.found record) (.offering (.skip record) (.refuse failure))
  | opened {record : FileRecord} {place : Place} {f : File}
      (h : m.locate name = .ok (place, .file f)) :
      FetchStep m name limit (.opening record)
        (.reading (.start record place f.inode f.content))
  | read {s s' : Sending} (h : s' = s.refresh m) :
      FetchStep m name limit (.reading s)
        (.offering (s'.message (s'.nextPiece limit)) (.goOn (s'.advance (s'.nextPiece limit))))
  | emptied {s s' : Sending} (h : s' = s.refresh m) (all : s'.sent = s'.record.size.toNat)
      (none : s'.sent = 0) : FetchStep m name limit (.reading s) (.offering .blank (.conclude 0))
  | ended {s s' : Sending} (h : s' = s.refresh m) (all : s'.sent = s'.record.size.toNat) :
      FetchStep m name limit (.reading s) (.finished (.ok s'.sent))
  | failed {p : FetchPhase} {failure : Failure} :
      FetchStep m name limit p (.finished (.error failure))
  | rested {p : FetchPhase} : FetchStep m name limit p p

/-- What becomes of a fetch that has offered a message. -/
inductive FetchHandover : Handover → FetchPhase → FetchPhase → Prop
  | wentOn {message : FetchChunk} {s : Sending} :
      FetchHandover .delivered (.offering message (.goOn s)) (.reading s)
  | concluded {message : FetchChunk} {n : Nat} :
      FetchHandover .delivered (.offering message (.conclude n)) (.finished (.ok n))
  | failed {outcome : Handover} {p : FetchPhase} {failure : Failure} :
      FetchHandover outcome p (.finished (.error failure))
  | rested {outcome : Handover} {p : FetchPhase}
      (nothing : ∀ message next, p ≠ .offering message next) : FetchHandover outcome p p

namespace FetchCall

theorem step_cases (e : Endpoint) (now : Moment) (limit : Nat) (c : FetchCall) :
    FetchStep e.mount c.name (max 1 (min limit e.chunkSize)) c.phase (c.step e now limit).2.phase ∧
      (c.step e now limit).1.mount = e.mount := by
  obtain ⟨name, mine, deadline, phase⟩ := c
  unfold step
  cases phase with
  | arrived =>
      refine ⟨?_, rfl⟩
      dsimp only
      unfold lookUp
      split
      · exact .failed
      · exact .failed
      · rename_i record h
        exact .looked h
  | found record =>
      dsimp only
      unfold decideCopy
      dsimp only
      split
      · exact ⟨.failed, rfl⟩
      · split
        · exact ⟨.decided, rfl⟩
        · exact ⟨.declined, rfl⟩
        · exact ⟨.declined, rfl⟩
  | opening record =>
      refine ⟨?_, rfl⟩
      dsimp only
      unfold openFile
      split
      · rename_i place f h
        exact .opened h
      all_goals exact .failed
  | reading s =>
      dsimp only
      unfold read
      split
      · exact ⟨.failed, rfl⟩
      · dsimp only
        split
        · unfold close
          split
          · exact ⟨.failed, rfl⟩
          · rename_i all
            split
            · rename_i none
              exact ⟨.emptied rfl (not_not.1 all) none, rfl⟩
            · exact ⟨.ended rfl (not_not.1 all), rfl⟩
        · exact ⟨.read rfl, rfl⟩
  | offering message next => exact ⟨.rested, rfl⟩
  | finished result => exact ⟨.rested, rfl⟩

theorem handOver_cases (e : Endpoint) (outcome : Handover) (c : FetchCall) :
    FetchHandover outcome c.phase (c.handOver e outcome).2.phase ∧
      (c.handOver e outcome).1.mount = e.mount := by
  obtain ⟨name, mine, deadline, phase⟩ := c
  unfold handOver
  cases phase with
  | offering message next =>
      dsimp only
      split
      · exact ⟨.failed, rfl⟩
      · exact ⟨.failed, rfl⟩
      · exact ⟨.failed, rfl⟩
      · exact ⟨.wentOn, rfl⟩
      · exact ⟨.concluded, rfl⟩
  | arrived => exact ⟨.rested nofun, rfl⟩
  | found record => exact ⟨.rested nofun, rfl⟩
  | opening record => exact ⟨.rested nofun, rfl⟩
  | reading s => exact ⟨.rested nofun, rfl⟩
  | finished result => exact ⟨.rested nofun, rfl⟩

end FetchCall

/-! ### Open files and temporary files

Files are told apart by their numbers.  A number that was given once is not given again, so a new
temporary file is none of the open ones, and an open file can only be found where it was opened.
-/

/-- A file that a call has open: where it was, which one it is, and what is in it. -/
structure Handle where
  place : Place
  inode : Nat
  content : Bytes

def Sending.handle (s : Sending) : Handle := ⟨s.place, s.inode, s.content⟩

def FetchPhase.sending? : FetchPhase → Option Sending
  | .reading s | .offering _ (.goOn s) => some s
  | _ => none

/-- The file that a call has open, while it has. -/
def Running.handle? : Running → Option Handle
  | fetch c => c.phase.sending?.map Sending.handle
  | _ => none

/-- No open file changes, and no temporary file is another file too.  `temporary` tells the
temporary files, and `opened` the open ones. -/
structure Intact (m : Mount) (temporary : EntryName → Prop) (opened : Handle → Prop) : Prop where
  numbered : m.tree.Numbered
  alone : ∀ τ g, temporary τ → m.get? τ = some (.file g) →
    ∀ p f, m.tree.get? p = some (.file f) → f.inode = g.inode → p = m.placeOf τ
  /-- The number of an open file is not given again. -/
  given : ∀ o, opened o → o.inode < m.tree.nextInode
  same : ∀ o, opened o → ∀ f, m.tree.get? o.place = some (.file f) → f.inode = o.inode →
    f.content = o.content
  apart : ∀ o τ g, opened o → temporary τ → m.get? τ = some (.file g) → g.inode = o.inode →
    o.place = m.placeOf τ

namespace Intact

variable {m m' : Mount} {T T' : EntryName → Prop} {O O' : Handle → Prop}

/-- Files may go, and so may what refers to them. -/
theorem mono (h : Intact m T O) (place : m'.place = m.place)
    (next : m'.tree.nextInode = m.tree.nextInode)
    (files : ∀ p f, m'.tree.get? p = some (.file f) → m.tree.get? p = some (.file f))
    (temporary : ∀ τ, T' τ → T τ) (opened : ∀ o, O' o → O o) : Intact m' T' O' := by
  have held : ∀ {τ : EntryName} {g : File}, m'.get? τ = some (.file g) →
      m.get? τ = some (.file g) := by
    intro τ g hg
    rw [Mount.get?, Mount.placeOf, place] at hg
    exact files _ _ hg
  refine ⟨?_, ?_, ?_, ?_, ?_⟩
  · intro p f hf
    rw [next]
    exact h.numbered p f (files p f hf)
  · intro τ g hτ hg p f hf hi
    rw [Mount.placeOf, place]
    exact h.alone τ g (temporary τ hτ) (held hg) p f (files p f hf) hi
  · intro o ho
    rw [next]
    exact h.given o (opened o ho)
  · exact fun o ho f hf hi => h.same o (opened o ho) f (files _ f hf) hi
  · intro o τ g ho hτ hg hi
    rw [Mount.placeOf, place]
    exact h.apart o τ g (opened o ho) (temporary τ hτ) (held hg) hi

theorem drop (h : Intact m T O) (name : EntryName) (temporary : ∀ τ, T' τ → T τ)
    (opened : ∀ o, O' o → O o) : Intact (m.drop name) T' O' := by
  refine h.mono rfl rfl ?_ temporary opened
  intro p f hf
  by_cases hp : p = m.placeOf name
  · subst hp
    have gone : (m.drop name).tree.get? (m.placeOf name) = none := m.tree.get?_drop_self _
    rw [gone] at hf
    exact nomatch hf
  · exact (m.tree.get?_drop_ne hp).symm.trans hf

/-- A temporary file that is made is a new file. -/
theorem create (h : Intact m T O) (now : UnixTime)
    (temporary : ∀ τ, T' τ → T τ ∨ τ = m.freshPartial) (opened : ∀ o, O' o → O o) :
    Intact (m.withTree (m.tree.create (m.placeOf m.freshPartial) [] (.atSecond now))) T' O' := by
  -- A file of the new tree is the new one, or it was there before.
  have cases_of : ∀ p f,
      (m.tree.create (m.placeOf m.freshPartial) [] (.atSecond now)).get? p = some (.file f) →
      p = m.placeOf m.freshPartial ∧ f.inode = m.tree.nextInode ∨
        m.tree.get? p = some (.file f) := by
    intro p f hf
    by_cases hp : p = m.placeOf m.freshPartial
    · subst hp
      rw [FileTree.get?_create_self] at hf
      cases hf
      exact Or.inl ⟨rfl, rfl⟩
    · rw [FileTree.get?_create_ne _ hp] at hf
      exact Or.inr hf
  have unused : ∀ f, ¬ m.tree.get? (m.placeOf m.freshPartial) = some (.file f) := by
    intro f hf
    have free : m.tree.get? (m.placeOf m.freshPartial) = none := m.get?_freshPartial
    rw [free] at hf
    exact nomatch hf
  refine ⟨h.numbered.create _ _ _, ?_, ?_, ?_, ?_⟩
  · intro τ g hτ hg p f hf hi
    show p = m.placeOf τ
    rcases cases_of _ g hg with ⟨hplace, hnew⟩ | hold
    · rcases cases_of p f hf with ⟨hp, -⟩ | hp
      · exact hp.trans hplace.symm
      · exact absurd (hi.trans hnew) (Nat.ne_of_lt (h.numbered p f hp))
    · have hτ' : T τ := by
        rcases temporary τ hτ with hτ | rfl
        · exact hτ
        · exact absurd hold (unused g)
      rcases cases_of p f hf with ⟨-, hnew⟩ | hp
      · exact absurd (hi.symm.trans hnew) (Nat.ne_of_lt (h.numbered _ g hold))
      · exact h.alone τ g hτ' hold p f hp hi
  · exact fun o ho => Nat.lt_succ_of_lt (h.given o (opened o ho))
  · intro o ho f hf hi
    rcases cases_of _ f hf with ⟨-, hnew⟩ | hold
    · exact absurd (hi.symm.trans hnew) (Nat.ne_of_lt (h.given o (opened o ho)))
    · exact h.same o (opened o ho) f hold hi
  · intro o τ g ho hτ hg hi
    rcases cases_of _ g hg with ⟨-, hnew⟩ | hold
    · exact absurd (hi.symm.trans hnew) (Nat.ne_of_lt (h.given o (opened o ho)))
    · rcases temporary τ hτ with hτ | rfl
      · exact h.apart o τ g (opened o ho) hτ hold hi
      · exact absurd hold (unused g)

/-- A temporary file that is given a name is not open under that name. -/
theorem install (h : Intact m T O) (hidden : ∀ τ, T τ → ∀ name : String, EntryName.text name ≠ τ)
    {τ : EntryName} {f : File} (hτ : T τ) (held : m.get? τ = some (.file f)) (name : String)
    (content : Bytes) (modified : Timestamp) (temporary : ∀ τ, T' τ → T τ)
    (opened : ∀ o, O' o → O o) :
    Intact ((m.drop τ).put (.text name) (.file { f with content, modified })) T' O' := by
  have other : EntryName.text name ≠ τ := hidden τ hτ name
  -- A file of the new tree is the one that was put in place, or it was there before and is not the
  -- temporary one.
  have cases_of : ∀ p g,
      ((m.drop τ).put (.text name) (.file { f with content, modified })).tree.get? p
        = some (.file g) →
      p = m.placeOf (.text name) ∧ g = { f with content, modified } ∨
        p ≠ m.placeOf τ ∧ m.tree.get? p = some (.file g) := by
    intro p g hg
    by_cases hp : p = m.placeOf (.text name)
    · subst hp
      have new := (m.drop τ).get?_put_self (.text name) (.file { f with content, modified })
      have same : some (Node.file g) = some (.file { f with content, modified }) :=
        hg.symm.trans new
      exact Or.inl ⟨rfl, Node.file.inj (Option.some.inj same)⟩
    · refine Or.inr ?_
      have old : (m.drop τ).tree.get? p = some (.file g) :=
        (FileTree.get?_put_ne _ hp _).symm.trans hg
      by_cases hq : p = m.placeOf τ
      · subst hq
        have gone : (m.drop τ).tree.get? (m.placeOf τ) = none := m.tree.get?_drop_self _
        rw [gone] at old
        exact nomatch old
      · exact ⟨hq, (m.tree.get?_drop_ne hq).symm.trans old⟩
  refine ⟨?_, ?_, ?_, ?_, ?_⟩
  · exact (h.numbered.drop _).put _ fun g hg => by cases hg; exact h.numbered _ f held
  · intro τ' g hτ' hg p g' hg' hi
    show p = m.placeOf τ'
    rcases cases_of _ g hg with ⟨hplace, -⟩ | ⟨hne, hold⟩
    · exact absurd (m.placeOf_injective hplace).symm (hidden τ' (temporary τ' hτ') name)
    · rcases cases_of p g' hg' with ⟨-, rfl⟩ | ⟨-, hp⟩
      · -- The new file has the number of the temporary one that it was.
        exact absurd (h.alone τ' g (temporary τ' hτ') hold _ f held hi).symm hne
      · exact h.alone τ' g (temporary τ' hτ') hold p g' hp hi
  · exact fun o ho => h.given o (opened o ho)
  · intro o ho g hg hi
    rcases cases_of _ g hg with ⟨hplace, rfl⟩ | ⟨-, hold⟩
    · have hopen := h.apart o τ f (opened o ho) hτ held hi
      exact absurd (m.placeOf_injective (hplace.symm.trans hopen)) other
    · exact h.same o (opened o ho) g hold hi
  · intro o τ' g ho hτ' hg hi
    rcases cases_of _ g hg with ⟨hplace, -⟩ | ⟨-, hold⟩
    · exact absurd (m.placeOf_injective hplace).symm (hidden τ' (temporary τ' hτ') name)
    · exact h.apart o τ' g (opened o ho) (temporary τ' hτ') hold hi

/-- A file that is opened is the one that is there. -/
theorem openFile (h : Intact m T O) {place : Place} {f : File}
    (there : m.tree.get? place = some (.file f)) (temporary : ∀ τ, T' τ → T τ)
    (opened : ∀ o, O' o → O o ∨ o = ⟨place, f.inode, f.content⟩) : Intact m T' O' := by
  refine ⟨h.numbered, fun τ g hτ => h.alone τ g (temporary τ hτ), ?_, ?_, ?_⟩
  · intro o ho
    rcases opened o ho with ho | rfl
    · exact h.given o ho
    · exact h.numbered place f there
  · intro o ho g hg hi
    rcases opened o ho with ho | rfl
    · exact h.same o ho g hg hi
    · rw [there] at hg
      cases hg
      rfl
  · intro o τ g ho hτ hg hi
    rcases opened o ho with ho | rfl
    · exact h.apart o τ g ho (temporary τ hτ) hg hi
    · exact h.alone τ g (temporary τ hτ) hg place f there hi.symm

end Intact

theorem MountChange.intact {r r' : Running} {m m' : Mount} {T T' : EntryName → Prop}
    {O O' : Handle → Prop} (h : MountChange r r' m m') (intact : Intact m T O)
    (hidden : ∀ τ, T τ → ∀ name : String, EntryName.text name ≠ τ)
    (mine : ∀ τ, r.temporary? = some τ → T τ)
    (temporary : ∀ τ, T' τ → T τ ∨ r'.temporary? = some τ) (opened : ∀ o, O' o → O o) :
    Intact m' T' O' := by
  -- A call that has no temporary file after its step adds none.
  have none_new : r'.temporary? = none → ∀ τ, T' τ → T τ := by
    intro hnone τ hτ
    rcases temporary τ hτ with hτ | hτ
    · exact hτ
    · rw [hnone] at hτ
      exact nomatch hτ
  cases h with
  | kept same =>
      refine intact.mono rfl rfl (fun _ _ hf => hf) (fun τ hτ => ?_) opened
      rcases temporary τ hτ with hτ | hτ
      · exact hτ
      · exact mine τ (same ▸ hτ)
  | opened now before after =>
      refine intact.create now (fun τ hτ => ?_) opened
      rcases temporary τ hτ with hτ | hτ
      · exact Or.inl hτ
      · rw [after] at hτ
        exact Or.inr (Option.some.inj hτ).symm
  | discarded before after => exact intact.drop _ (none_new after) opened
  | installed content modified before after writes subject held =>
      exact intact.install hidden (mine _ before) held _ content modified (none_new after) opened
  | removed before after writes subject => exact intact.drop _ (none_new after) opened

/-! ### What a fetch has open

A fetch has its file open from `opening` to its end, and goes on with what it saw there.  Looking
again would show it the same, as long as the file is intact.
-/

/-- Looking again at a file that has not changed changes nothing. -/
theorem Sending.refresh_eq {s : Sending} {m : Mount}
    (same : ∀ f, m.tree.get? s.place = some (.file f) → f.inode = s.inode →
      f.content = s.content) : s.refresh m = s := by
  unfold refresh
  split
  · rename_i f hf
    by_cases hi : f.inode = s.inode
    · have seen : s.hasSeen f.content = true := (s.hasSeen_iff _).2 (same f hf hi)
      simp [seen]
    · simp [hi]
  · rfl

/-- What a fetch has open after a step it had open before, or it has just opened it. -/
theorem FetchStep.handle {m : Mount} {name : String} {limit : Nat} {p p' : FetchPhase}
    {s' : Sending} (h : FetchStep m name limit p p')
    (same : ∀ s, p.sending? = some s → ∀ f, m.tree.get? s.place = some (.file f) →
      f.inode = s.inode → f.content = s.content)
    (hs' : p'.sending? = some s') :
    (∃ s, p.sending? = some s ∧ s'.handle = s.handle) ∨
      ∃ place f, m.locate name = .ok (place, .file f) ∧
        s'.handle = ⟨place, f.inode, f.content⟩ := by
  cases h with
  | opened hloc =>
      cases hs'
      exact Or.inr ⟨_, _, hloc, rfl⟩
  | @read s _ href =>
      cases hs'
      have unchanged := Sending.refresh_eq (same s rfl)
      refine Or.inl ⟨s, rfl, ?_⟩
      rw [href, unchanged]
      rfl
  | rested => exact Or.inl ⟨s', hs', rfl⟩
  | looked => exact nomatch hs'
  | decided => exact nomatch hs'
  | declined => exact nomatch hs'
  | emptied => exact nomatch hs'
  | ended => exact nomatch hs'
  | failed => exact nomatch hs'

theorem FetchHandover.sending? {outcome : Handover} {p p' : FetchPhase} {s' : Sending}
    (h : FetchHandover outcome p p') (hs' : p'.sending? = some s') : p.sending? = some s' := by
  cases h with
  | wentOn => exact hs'
  | rested => exact hs'
  | concluded => exact nomatch hs'
  | failed => exact nomatch hs'

namespace Traffic

def temporaries (t : Traffic) (τ : EntryName) : Prop := ∃ r ∈ t.calls, r.temporary? = some τ

def openFiles (t : Traffic) (o : Handle) : Prop := ∃ r ∈ t.calls, r.handle? = some o

/-- The files that the calls have open are intact. -/
def Sound (t : Traffic) : Prop := Intact t.endpoint.mount t.temporaries t.openFiles

variable {t t' : Traffic} {now : Moment} {move : Move}

theorem openFiles_of_sending {k : Nat} {c : FetchCall} (hk : t.calls[k]? = some (.fetch c))
    {s : Sending} (hs : c.phase.sending? = some s) : t.openFiles s.handle := by
  refine ⟨_, List.mem_of_getElem? hk, ?_⟩
  show c.phase.sending?.map Sending.handle = _
  rw [hs]
  rfl

/-- A fetch changes no mount, and has a file open that was open before or that it has just
found. -/
theorem sound_of_fetch {k : Nat} {c' : FetchCall} {e' : Endpoint} (ht : t.Sound) (name : String)
    (hmount : e'.mount = t.endpoint.mount)
    (open_of : ∀ o, (Running.fetch c').handle? = some o → t.openFiles o ∨
      ∃ place f, t.endpoint.mount.locate name = .ok (place, .file f) ∧
        o = ⟨place, f.inode, f.content⟩) : (t.advance k (e', .fetch c')).Sound := by
  have temporary : ∀ τ, (t.advance k (e', .fetch c')).temporaries τ → t.temporaries τ := by
    rintro τ ⟨r, hr, hτ⟩
    rcases List.mem_or_eq_of_mem_set hr with hr | rfl
    · exact ⟨r, hr, hτ⟩
    · exact nomatch hτ
  have kept : ∀ {o}, (t.advance k (e', .fetch c')).openFiles o →
      t.openFiles o ∨ (Running.fetch c').handle? = some o := by
    rintro o ⟨r, hr, ho⟩
    rcases List.mem_or_eq_of_mem_set hr with hr | rfl
    · exact Or.inl ⟨r, hr, ho⟩
    · exact Or.inr ho
  show Intact e'.mount _ _
  rw [hmount]
  cases hs : (Running.fetch c').handle? with
  | none =>
      refine Intact.mono ht rfl rfl (fun _ _ hf => hf) temporary fun o ho => ?_
      rcases kept ho with ho | ho
      · exact ho
      · rw [hs] at ho
        exact nomatch ho
  | some o' =>
      rcases open_of o' hs with hold | ⟨place, f, hloc, rfl⟩
      · refine Intact.mono ht rfl rfl (fun _ _ hf => hf) temporary fun o ho => ?_
        rcases kept ho with ho | ho
        · exact ho
        · rw [hs] at ho
          cases ho
          exact hold
      · refine Intact.openFile ht (Mount.get?_of_locate hloc) temporary fun o ho => ?_
        rcases kept ho with ho | ho
        · exact Or.inl ho
        · rw [hs] at ho
          cases ho
          exact Or.inr rfl

/-- A call that has no file open after its step leaves the open files as they are. -/
theorem sound_of_closed {k : Nat} {r : Running} {x : Endpoint × Running} (hidden : t.Hidden)
    (ht : t.Sound) (call : t.calls[k]? = some r)
    (change : MountChange r x.2 t.endpoint.mount x.1.mount) (closed : x.2.handle? = none) :
    (t.advance k x).Sound := by
  have mine : ∀ τ, r.temporary? = some τ → t.temporaries τ :=
    fun τ hτ => ⟨r, List.mem_of_getElem? call, hτ⟩
  refine change.intact ht ?_ mine ?_ ?_
  · rintro τ ⟨s, hs, hτ⟩ name
    obtain ⟨j, hj⟩ := List.mem_iff_getElem?.1 hs
    exact hidden j s hj τ hτ name
  · rintro τ ⟨s, hs, hτ⟩
    rcases List.mem_or_eq_of_mem_set hs with hs | rfl
    · exact Or.inl ⟨s, hs, hτ⟩
    · exact Or.inr hτ
  · rintro o ⟨s, hs, ho⟩
    rcases List.mem_or_eq_of_mem_set hs with hs | rfl
    · exact ⟨s, hs, ho⟩
    · rw [closed] at ho
      exact nomatch ho

/-- A move changes no file that a call has open. -/
theorem sound_of_turn (h : t.Turn now move t') (hidden : t.Hidden) (ht : t.Sound) :
    t'.Sound := by
  cases h with
  | @lock name client deadline =>
      show Intact (t.endpoint.requestLock name client deadline now.instant).1.mount _ _
      rw [mount_requestLock]
      exact ht
  | @arrive move r fresh number =>
      refine Intact.mono ht rfl rfl (fun _ _ hf => hf) ?_ ?_
      · rintro τ ⟨s, hs, hτ⟩
        rcases List.mem_append.1 hs with hs | hs
        · exact ⟨s, hs, hτ⟩
        · rw [List.mem_singleton.1 hs, ← fresh, Running.temporary?_origin] at hτ
          exact nomatch hτ
      · rintro o ⟨s, hs, ho⟩
        rcases List.mem_append.1 hs with hs | hs
        · exact ⟨s, hs, ho⟩
        · rw [List.mem_singleton.1 hs, ← fresh] at ho
          cases r <;> exact nomatch ho
  | @go move k r x call acts =>
      have other := sound_of_closed hidden ht call acts.stride.mount
      cases acts with
      | store => exact other rfl
      | delete => exact other rfl
      | probe => exact other rfl
      | expiry => exact other rfl
      | take => exact other rfl
      | @fetch c c' e' limit hstep =>
          obtain ⟨hcases, hmount⟩ := c.step_cases t.endpoint now limit
          rw [hstep] at hcases hmount
          refine sound_of_fetch ht c.name hmount fun o ho => ?_
          obtain ⟨s', hs', rfl⟩ := Option.map_eq_some_iff.1 ho
          rcases hcases.handle (fun s hs => ht.same _ (openFiles_of_sending call hs)) hs' with
            ⟨s, hs, hhandle⟩ | ⟨place, f, hloc, hhandle⟩
          · exact Or.inl (hhandle ▸ openFiles_of_sending call hs)
          · exact Or.inr ⟨place, f, hloc, hhandle⟩
      | @handOver c c' e' outcome hstep =>
          obtain ⟨hcases, hmount⟩ := c.handOver_cases t.endpoint outcome
          rw [hstep] at hcases hmount
          refine sound_of_fetch ht c.name hmount fun o ho => ?_
          obtain ⟨s', hs', rfl⟩ := Option.map_eq_some_iff.1 ho
          exact Or.inl (openFiles_of_sending call (hcases.sending? hs'))

/-- **No file that a call has open ever changes.** -/
theorem sound_of_run {e : Endpoint} (numbered : e.mount.tree.Numbered) :
    ∀ moves t, (idle e).run moves = some t → t.Sound := by
  have start : (idle e).Sound := by
    refine ⟨numbered, ?_, ?_, ?_, ?_⟩
    · rintro τ g ⟨r, hr, -⟩
      exact nomatch hr
    · rintro o ⟨r, hr, -⟩
      exact nomatch hr
    · rintro o ⟨r, hr, -⟩
      exact nomatch hr
    · rintro o τ g ⟨r, hr, -⟩
      exact nomatch hr
  refine run_induction start ?_
  intro moves t now move t' hrun hnext ih
  exact sound_of_turn (turn_of_next hnext) (hidden_of_run e moves t hrun) ih

end Traffic

end MountSync
