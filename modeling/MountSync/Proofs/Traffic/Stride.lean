/-
What one step of a call does to all the others.

The calls on an endpoint share the locks and the mount, and nothing else of what a step changes
matters to any of them.  So a step is described by the two changes that it may make.

  * Of the locks it either changes nothing, or it lets go of the lock that the call was begun
    under.  Only a call that has found its caller to be the owner does that, and only with its
    last step.
  * Of the mount it either changes nothing, or it makes, drops or renames the temporary file of
    the call, or it removes the file that the call is about.

Everything that is proved about calls that overlap rests on this description, so it is the only
place that looks into the steps themselves.
-/
import MountSync.Endpoint.Traffic
import MountSync.Proofs.Lock

namespace MountSync

/-! ### A call seen from outside

A call *relies* on its lock from the moment at which it has found its caller to be the owner
until it has let go of the lock.  It *writes* with its next step if that step puts a file in
place or removes it.
-/

def StorePhase.relies : StorePhase → Bool
  | .owner | .opening | .receiving _ | .complete _ | .installed _ | .givingUp _
  | .disposing _ _ => true
  | .arrived | .expired | .finished _ => false

def DeletePhase.relies : DeletePhase → Bool
  | .owner | .present | .absent | .removed | .refused _ | .disposing _ _ => true
  | .arrived | .finished _ => false

def ProbePhase.relies : ProbePhase → Bool
  | .owner => true
  | .arrived | .same | .finished _ => false

def ExpiryPhase.relies : ExpiryPhase → Bool
  | .owner | .disposing _ => true
  | .arrived | .finished => false

def StorePhase.writes : StorePhase → Bool
  | .complete _ => true
  | _ => false

def DeletePhase.writes : DeletePhase → Bool
  | .present => true
  | _ => false

/-- The temporary file of a store, while there is one. -/
def StorePhase.temporary? : StorePhase → Option EntryName
  | .receiving intake | .complete intake => some intake.temporary
  | _ => none

namespace Running

/-- The call as it was when it came. -/
def origin : Running → Running
  | store c => store (c.goTo .arrived)
  | fetch c => fetch (c.goTo .arrived)
  | delete c => delete (c.goTo .arrived)
  | probe c => probe (c.goTo .arrived)
  | expiry c => expiry (c.goTo .arrived)

/-- The file that a call is about, and the client that has to own it. -/
def subject? : Running → Option (String × ClientId)
  | store c => some (c.name, c.client)
  | fetch _ => none
  | delete c => some (c.name, c.client)
  | probe c => some (c.name, c.client)
  | expiry c => some (c.name, c.client)

def relies : Running → Bool
  | store c => c.phase.relies
  | fetch _ => false
  | delete c => c.phase.relies
  | probe c => c.phase.relies
  | expiry c => c.phase.relies

def writes : Running → Bool
  | store c => c.phase.writes
  | delete c => c.phase.writes
  | _ => false

def temporary? : Running → Option EntryName
  | store c => c.phase.temporary?
  | _ => none

def isOver : Running → Bool
  | store c => c.result?.isSome
  | fetch c => c.result?.isSome
  | delete c => c.result?.isSome
  | probe c => c.result?.isSome
  | expiry c => c.phase = .finished

theorem subject?_origin (r : Running) : r.origin.subject? = r.subject? := by
  cases r <;> rfl

/-- A call that has just come relies on nothing and has no temporary file. -/
theorem relies_origin (r : Running) : r.origin.relies = false := by
  cases r <;> rfl

theorem temporary?_origin (r : Running) : r.origin.temporary? = none := by
  cases r <;> rfl

theorem header_of_origin {c c' : StoreCall} (h : (store c').origin = (store c).origin) :
    c'.header = c.header := by
  have same : c'.goTo .arrived = c.goTo .arrived := store.inj h
  show (c'.goTo .arrived).header = (c.goTo .arrived).header
  rw [same]

theorem name_of_origin {c c' : FetchCall} (h : (fetch c').origin = (fetch c).origin) :
    c'.name = c.name := by
  have same : c'.goTo .arrived = c.goTo .arrived := fetch.inj h
  show (c'.goTo .arrived).name = (c.goTo .arrived).name
  rw [same]

theorem phase_of_fresh_store {c : StoreCall} (fresh : (store c).origin = store c) :
    c.phase = .arrived :=
  (congrArg StoreCall.phase (store.inj fresh)).symm

theorem phase_of_fresh_fetch {c : FetchCall} (fresh : (fetch c).origin = fetch c) :
    c.phase = .arrived :=
  (congrArg FetchCall.phase (fetch.inj fresh)).symm

theorem phase_of_fresh_delete {c : DeleteCall} (fresh : (delete c).origin = delete c) :
    c.phase = .arrived :=
  (congrArg DeleteCall.phase (delete.inj fresh)).symm

/-- A call that is over relies on nothing. -/
theorem relies_of_isOver {r : Running} (h : r.isOver = true) : r.relies = false := by
  cases r with
  | store c =>
      cases hp : c.phase <;>
        simp_all [isOver, StoreCall.result?, relies, StorePhase.relies]
  | fetch c => rfl
  | delete c =>
      cases hp : c.phase <;>
        simp_all [isOver, DeleteCall.result?, relies, DeletePhase.relies]
  | probe c =>
      cases hp : c.phase <;>
        simp_all [isOver, ProbeCall.result?, relies, ProbePhase.relies]
  | expiry c => cases hp : c.phase <;> simp_all [isOver, relies, ExpiryPhase.relies]

theorem isOver_of_relies {r : Running} (h : r.relies = true) : r.isOver = false := by
  cases hover : r.isOver with
  | false => rfl
  | true =>
      rw [relies_of_isOver hover] at h
      exact nomatch h

/-- Who writes relies on a lock. -/
theorem relies_of_writes {r : Running} (h : r.writes = true) : r.relies = true := by
  cases r with
  | store c => cases hp : c.phase <;> simp_all [writes, StorePhase.writes, relies, StorePhase.relies]
  | delete c =>
      cases hp : c.phase <;> simp_all [writes, DeletePhase.writes, relies, DeletePhase.relies]
  | fetch c => simp [writes] at h
  | probe c => simp [writes] at h
  | expiry c => simp [writes] at h

/-- Whether the caller owns the file that the call is about. -/
def OwnedIn (r : Running) (t : LockTable) : Prop :=
  ∃ f c, r.subject? = some (f, c) ∧ t.ownerOf f = some c

end Running

/-! ### The two changes

The row of a lock is taken away only together with the result of the call, so a call that is still
under way has not touched the lock it relies on.  A file is put in place or removed only by a step
from a phase that writes, and such a phase relies on the lock.
-/

/-- What a step that leads from `r` to `r'` makes of the locks. -/
inductive LockChange (r r' : Running) (t : LockTable) : LockTable → Prop
  | kept : LockChange r r' t t
  | released {f : String} {c : ClientId} (subject : r.subject? = some (f, c))
      (relied : r.relies = true) (ended : r'.isOver = true) : LockChange r r' t (t.release f c).1
  | deleted {f : String} {c : ClientId} (subject : r.subject? = some (f, c))
      (relied : r.relies = true) (ended : r'.isOver = true) : LockChange r r' t (t.delete f c).1

/-- What a step that leads from `r` to `r'` makes of the mount. -/
inductive MountChange (r r' : Running) (m : Mount) : Mount → Prop
  | kept (temporary : r'.temporary? = r.temporary?) : MountChange r r' m m
  | opened (now : UnixTime) (before : r.temporary? = none)
      (after : r'.temporary? = some m.freshPartial) :
      MountChange r r' m
        (m.withTree (m.tree.create (m.placeOf m.freshPartial) [] (.atSecond now)))
  | discarded {τ : EntryName} (before : r.temporary? = some τ) (after : r'.temporary? = none) :
      MountChange r r' m (m.drop τ)
  | installed {τ : EntryName} {name : String} {c : ClientId} {f : File} (content : Bytes)
      (modified : Timestamp) (before : r.temporary? = some τ) (after : r'.temporary? = none)
      (writes : r.writes = true) (subject : r.subject? = some (name, c))
      (held : m.get? τ = some (.file f)) :
      MountChange r r' m ((m.drop τ).put (.text name) (.file { f with content, modified }))
  | removed {name : String} {c : ClientId} (before : r.temporary? = none)
      (after : r'.temporary? = none) (writes : r.writes = true)
      (subject : r.subject? = some (name, c)) :
      MountChange r r' m (m.drop (.text name))

/-- A step from one state of an endpoint and a call to the next. -/
structure Stride (e : Endpoint) (r : Running) (e' : Endpoint) (r' : Running) : Prop where
  /-- It is still the same call. -/
  origin : r'.origin = r.origin
  locks : LockChange r r' e.locks e'.locks
  mount : MountChange r r' e.mount e'.mount
  /-- Nobody relies on a lock who has not looked at it. -/
  check : r'.relies = true → r.relies = true ∨ r.OwnedIn e.locks
  /-- A call that lets go of its lock is over. -/
  lasts : r.relies = true → r'.relies = true ∨ r'.isOver = true
  /-- A call that is over stays as it is. -/
  rests : r.isOver = true → r' = r

namespace Stride

variable {e e' : Endpoint} {r r' : Running}

theorem refl (e : Endpoint) (r : Running) : Stride e r e r :=
  ⟨rfl, .kept, .kept rfl, Or.inl, Or.inl, fun _ => rfl⟩

/-- A step that changes neither the locks nor the mount, nor whether the call relies on its
lock. -/
theorem quiet (origin : r'.origin = r.origin) (locks : e'.locks = e.locks)
    (mount : e'.mount = e.mount) (temporary : r'.temporary? = r.temporary?)
    (relies : r'.relies = r.relies) (going : r.isOver = false) : Stride e r e' r' where
  origin := origin
  locks := locks ▸ .kept
  mount := mount ▸ .kept temporary
  check := fun h => Or.inl (relies ▸ h)
  lasts := fun h => Or.inl (relies ▸ h)
  rests := fun h => by simp [going] at h

/-- A step that finds the caller to be the owner. -/
theorem checked (origin : r'.origin = r.origin) (temporary : r'.temporary? = r.temporary?)
    (owned : r.OwnedIn e.locks) (relies : r'.relies = true) (going : r.isOver = false) :
    Stride e r e r' where
  origin := origin
  locks := .kept
  mount := .kept temporary
  check := fun _ => Or.inr owned
  lasts := fun _ => Or.inl relies
  rests := fun h => by simp [going] at h

/-- A step under a lock that changes nothing but the mount. -/
theorem ofMount (origin : r'.origin = r.origin) (locks : e'.locks = e.locks)
    (mount : MountChange r r' e.mount e'.mount) (relies : r.relies = true)
    (relies' : r'.relies = true) : Stride e r e' r' where
  origin := origin
  locks := locks ▸ .kept
  mount := mount
  check := fun _ => Or.inl relies
  lasts := fun _ => Or.inl relies'
  rests := fun h => by simp [Running.relies_of_isOver h] at relies

/-- The last step of a call under a lock. -/
theorem ofLocks (origin : r'.origin = r.origin) (locks : LockChange r r' e.locks e'.locks)
    (mount : e'.mount = e.mount) (temporary : r'.temporary? = r.temporary?)
    (relies : r.relies = true) (ended : r'.isOver = true) : Stride e r e' r' where
  origin := origin
  locks := locks
  mount := mount ▸ .kept temporary
  check := fun _ => Or.inl relies
  lasts := fun _ => Or.inr ended
  rests := fun h => by simp [Running.relies_of_isOver h] at relies

theorem subject? (h : Stride e r e' r') : r'.subject? = r.subject? := by
  rw [← r'.subject?_origin, h.origin, r.subject?_origin]

end Stride

/-! ### What becomes of the owner of a file

Strides never give a file an owner: that is what a request for the lock does, and a request is no
call that is under way.
-/

namespace LockChange

variable {r r' : Running} {t t' : LockTable}

/-- While a call relies on its lock it changes none. -/
theorem eq_of_relies (h : LockChange r r' t t') (hr : r'.relies = true) : t' = t := by
  cases h with
  | kept => rfl
  | released subject relied ended => simp [Running.relies_of_isOver ended] at hr
  | deleted subject relied ended => simp [Running.relies_of_isOver ended] at hr

/-- An owner is only ever taken away, and only by a call of that owner on that file. -/
theorem ownerOf (h : LockChange r r' t t') (f : String) :
    t'.ownerOf f = t.ownerOf f ∨
      ∃ c, r.subject? = some (f, c) ∧ r.relies = true ∧ r'.isOver = true ∧
        t.ownerOf f = some c ∧ t'.ownerOf f = none := by
  cases h with
  | kept => exact Or.inl rfl
  | @released g c subject relied ended =>
      by_cases hf : f = g
      · subst hf
        by_cases hc : t.ownerOf f = some c
        · exact Or.inr ⟨c, subject, relied, ended, hc, by
            rw [LockTable.ownerOf_release, if_pos hc]⟩
        · exact Or.inl (by rw [LockTable.ownerOf_release, if_neg hc])
      · exact Or.inl (LockTable.ownerOf_release_ne hf)
  | @deleted g c subject relied ended =>
      by_cases hf : f = g
      · subst hf
        by_cases hc : t.ownerOf f = some c
        · exact Or.inr ⟨c, subject, relied, ended, hc, by
            rw [LockTable.ownerOf_delete, if_pos hc]⟩
        · exact Or.inl (by rw [LockTable.ownerOf_delete, if_neg hc])
      · exact Or.inl (LockTable.ownerOf_delete_ne hf)

end LockChange

/-! ### What becomes of an entry of the mount -/

/-- Nobody can name the temporary file of a call. -/
def Running.Hides (r : Running) : Prop :=
  ∀ τ, r.temporary? = some τ → ∀ name : String, EntryName.text name ≠ τ

namespace MountChange

variable {r r' : Running} {m m' : Mount}

theorem place_eq (h : MountChange r r' m m') : m'.place = m.place := by
  cases h <;> rfl

theorem hides (h : MountChange r r' m m') (hr : r.Hides) : r'.Hides := by
  cases h with
  | kept temporary => unfold Running.Hides; rw [temporary]; exact hr
  | opened now before after =>
      intro τ hτ name
      rw [after] at hτ
      cases hτ
      exact nofun
  | discarded before after => intro τ hτ; rw [after] at hτ; exact nomatch hτ
  | installed content modified before after writes subject held =>
      intro τ hτ; rw [after] at hτ; exact nomatch hτ
  | removed before after writes subject => intro τ hτ; rw [after] at hτ; exact nomatch hτ

/-- The entry of a name changes only if the call is about it and writes. -/
theorem get?_text (h : MountChange r r' m m') (hr : r.Hides) (name : String) :
    m'.get? (.text name) = m.get? (.text name) ∨
      r.writes = true ∧ ∃ c, r.subject? = some (name, c) := by
  cases h with
  | kept temporary => exact Or.inl rfl
  | opened now before after =>
      have hne : m.placeOf (.text name) ≠ m.placeOf m.freshPartial := fun same =>
        EntryName.noConfusion (m.placeOf_injective same)
      exact Or.inl (m.tree.get?_create_ne hne _ _)
  | @discarded τ before after => exact Or.inl (m.get?_drop_ne (hr τ before name))
  | @installed τ other c f content modified before after writes subject held =>
      by_cases hn : name = other
      · exact Or.inr ⟨writes, c, hn ▸ subject⟩
      · refine Or.inl ?_
        rw [Mount.get?_put_ne _ (fun h => hn (EntryName.text.inj h)),
          m.get?_drop_ne (hr τ before name)]
  | @removed other c before after writes subject =>
      by_cases hn : name = other
      · exact Or.inr ⟨writes, c, hn ▸ subject⟩
      · exact Or.inl (m.get?_drop_ne fun h => hn (EntryName.text.inj h))

/-- What is no entry of the mount stays as it is. -/
theorem get?_outside (h : MountChange r r' m m') {p : Place} (hp : ∀ name, p ≠ m.placeOf name) :
    m'.tree.get? p = m.tree.get? p := by
  cases h with
  | kept temporary => rfl
  | opened now before after => exact m.tree.get?_create_ne (hp _) _ _
  | discarded before after => exact m.tree.get?_drop_ne (hp _)
  | installed content modified before after writes subject held =>
      exact (FileTree.get?_put_ne _ (hp _) _).trans (m.tree.get?_drop_ne (hp _))
  | removed before after writes subject => exact m.tree.get?_drop_ne (hp _)

end MountChange

end MountSync
