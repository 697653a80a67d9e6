/-
Who is told that somebody else holds a lock.

Only a call for a lock is, and only if that is so.  All other calls that need a lock look whether
they have it, and are told that they have not.
-/
import MountSync.Proofs.Endpoint.Alone
import MountSync.Proofs.Endpoint.Manifest
import MountSync.Proofs.Traffic.Failure
import MountSync.Proofs.Traffic.Sent
import MountSync.Server.Basic

namespace MountSync

/-! ### Fetches

A fetch may be interrupted between any two of its steps, so its failures are followed along `Sent`,
which says nothing of the endpoint that each step is taken on.
-/

/-- The failure that a fetch ends with, from the moment at which it is known. -/
def FetchPhase.failure? : FetchPhase → Option Failure
  | .offering _ (.refuse failure) | .finished (.error failure) => some failure
  | _ => none

namespace FetchCall

variable {e : Endpoint} {now : Moment} {limit : Nat} {c : FetchCall} {g : Failure}

/-- The result is a failure only if the last phase has it. -/
theorem failure_of_result (h : c.result? = some (.error g)) : c.phase.failure? = some g := by
  unfold result? at h
  split at h
  · rename_i phase
    cases h
    rw [phase, FetchPhase.failure?]
  · cases h

/-- A name that is refused, and a file that is not there, are plain failures. -/
theorem failure_lookUp (h : (c.lookUp e).phase.failure? = some g) : g.Plain := by
  unfold lookUp at h
  split at h
  · rename_i refused
    cases h
    exact Mount.plain_of_statFile refused
  · cases h
    exact ⟨nofun, nofun⟩
  · cases h

theorem failure_decideCopy {record : FileRecord}
    (h : (c.decideCopy e now record).2.phase.failure? = some g) : g.Plain := by
  unfold decideCopy at h
  dsimp only at h
  split at h
  · cases h
    exact ⟨nofun, nofun⟩
  · split at h <;> cases h
    · exact ⟨nofun, nofun⟩
    · exact ⟨nofun, nofun⟩

theorem failure_openFile {record : FileRecord}
    (h : (c.openFile e record).phase.failure? = some g) : g.Plain := by
  unfold openFile at h
  split at h <;> cases h
  · exact ⟨nofun, nofun⟩
  · exact ⟨nofun, nofun⟩
  · exact ⟨nofun, nofun⟩

/-- A file that has shrunk, or cannot be read, is a plain failure. -/
theorem failure_read {s : Sending} (h : (c.read e now limit s).2.phase.failure? = some g) :
    g.Plain := by
  unfold read at h
  split at h
  · cases h
    exact ⟨nofun, nofun⟩
  · dsimp only at h
    split at h
    · unfold close at h
      split at h
      · cases h
        exact ⟨nofun, nofun⟩
      · split at h <;> cases h
    · cases h

/-- No step of a fetch asks about a lock. -/
theorem failure_step (h : (c.step e now limit).2.phase.failure? = some g) :
    c.phase.failure? = some g ∨ g.Plain := by
  unfold step at h
  cases phase : c.phase with
  | arrived =>
      rw [phase] at h
      exact Or.inr (failure_lookUp h)
  | found record =>
      rw [phase] at h
      exact Or.inr (failure_decideCopy h)
  | opening record =>
      rw [phase] at h
      exact Or.inr (failure_openFile h)
  | reading s =>
      rw [phase] at h
      exact Or.inr (failure_read h)
  | offering message next =>
      simp only [phase] at h
      exact Or.inl h
  | finished result =>
      simp only [phase] at h
      exact Or.inl h

theorem failure_handOver {outcome : Handover}
    (h : (c.handOver e outcome).2.phase.failure? = some g) :
    c.phase.failure? = some g ∨ g.Plain := by
  unfold handOver at h
  split at h
  · rename_i message next phase
    split at h
    · cases h
      exact Or.inr ⟨nofun, nofun⟩
    · cases h
      exact Or.inr ⟨nofun, nofun⟩
    · cases h
      rw [phase]
      exact Or.inl rfl
    · cases h
    · cases h
  · exact Or.inl h

/-- No fetch fails because of a lock, whatever is done to the endpoint meanwhile. -/
theorem Sent.plain {c₀ : FetchCall} {messages : List FetchChunk} (h : Sent c₀ c messages)
    (fresh : c₀.phase = .arrived) : ∀ g, c.phase.failure? = some g → g.Plain := by
  induction h with
  | begun =>
      rw [fresh]
      exact nofun
  | step e now limit _ ih =>
      intro g failed
      rcases failure_step failed with before | plain
      · exact ih g before
      · exact plain
  | handOver e outcome _ ih =>
      intro g failed
      rcases failure_handOver failed with before | plain
      · exact ih g before
      · exact plain

end FetchCall

namespace Endpoint

variable {e : Endpoint} {deadline : Deadline} {s : Schedule} {name : String} {client : ClientId}
  {g : Failure}

/-- A call that is not over is told that its deadline has passed. -/
theorem plain_of_getD {α : Type} {result : Option (Except Failure α)}
    (h : result.getD (.error .deadlineExceeded) = .error g) :
    result = some (.error g) ∨ g.Plain := by
  cases result with
  | none =>
      cases h
      exact Or.inr ⟨nofun, nofun⟩
  | some result => exact Or.inl (congrArg some h)

/-! ### Calls that look at files

These change nothing, and what they are told comes from the mount or the clock.  A comparison of
checksums is the exception: it may give a lock back, but it does not say how that went.
-/

theorem plain_of_stat {now : Nat} (h : e.stat name deadline now = .error g) : g.Plain := by
  unfold stat at h
  split at h
  · cases h
    exact ⟨nofun, nofun⟩
  · split at h
    · rename_i refused
      cases h
      exact Mount.plain_of_statFile refused
    · cases h
      exact ⟨nofun, nofun⟩
    · cases h

theorem plain_of_compareMtime {mtime : UnixTime} {now : Nat}
    (h : e.compareMtime name mtime deadline now = .error g) : g.Plain := by
  unfold compareMtime at h
  split at h
  · rename_i refused
    cases h
    exact plain_of_stat refused
  · cases h

theorem plain_of_list {now : Nat} (h : e.list deadline now = .error g) : g.Plain := by
  unfold list Mount.list at h
  split at h
  · cases h
    exact ⟨nofun, nofun⟩
  · split at h <;> cases h
    exact ⟨nofun, nofun⟩

/-- A probe is never told who owns the file, even if that is somebody else. -/
theorem plain_of_probe {sum : UInt32} {now : Moment}
    (h : (e.probe name client sum deadline now).2 = .error g) : g.Plain := by
  have step : ∀ (e : Endpoint) (now : Moment) (c : ProbeCall),
      (∀ g, c.result? = some (.error g) → g.Plain) →
        ∀ g, (c.step e now).2.result? = some (.error g) → g.Plain := by
    intro e now c before g failed
    unfold ProbeCall.step at failed
    split at failed
    · split at failed
      · rename_i refused
        cases failed
        exact plain_of_stat refused
      · split at failed <;> cases failed
    · split at failed <;> cases failed
      exact ⟨nofun, nofun⟩
    · cases failed
      exact ⟨nofun, nofun⟩
    · exact before g failed
  obtain ⟨c, told, plain⟩ := probe_induction (e := e) (d := deadline) (P := fun _ c =>
    ∀ g, c.result? = some (.error g) → g.Plain) step (nofun : ∀ g,
      (ProbeCall.begin name client sum deadline).result? = some (.error g) → g.Plain) now
  rw [told] at h
  rcases plain_of_getD h with failed | plain'
  · exact plain g failed
  · exact plain'

theorem plain_of_fetch {mine : Option FileVersion}
    (h : (e.fetch name mine deadline s (fun _ => readLimit) fun _ => .delivered).2.1 = .error g) :
    g.Plain := by
  have sent := FetchCall.Sent.finish e s (fun _ => readLimit) (fun _ => .delivered)
    (.begin name mine deadline)
  rcases plain_of_getD h with failed | plain
  · exact sent.plain rfl g (FetchCall.failure_of_result failed)
  · exact plain

/-! ### Calls under a lock

Here the failure may be internal, so it need not be plain.  It is none of a lock that somebody else
holds, and that is what is left to be shown.
-/

/-- A store adds no such failure to those that its stream brings. -/
theorem kind_of_storeFrom {h : StoreHeader} {stream : List Arrival}
    (brings : ∀ a ∈ stream, ∀ g, a.failure? = some g → g.Plain)
    (failed : (e.storeFrom h deadline s stream).2.1 = .error g) : g.kind ≠ .resourceExhausted := by
  have step : ∀ (e : Endpoint) (now : Moment) (c : StoreCall),
      (∀ g, c.phase.failure? = some g → g.kind ≠ .resourceExhausted) →
        ∀ g, (c.step e now).2.phase.failure? = some g → g.kind ≠ .resourceExhausted := by
    intro e now c before g failed
    rcases StoreCall.failure_step (Prod.ext rfl rfl) failed with earlier | plain | ⟨internal, -, -⟩
    · exact before g earlier
    · exact plain.2
    · rw [internal]
      exact nofun
  have take : ∀ (e : Endpoint) (now : Moment) (c : StoreCall) (a : Arrival),
      a ∈ stream ∨ a = .late →
      (∀ g, c.phase.failure? = some g → g.kind ≠ .resourceExhausted) →
        ∀ g, (c.take e now a).2.phase.failure? = some g → g.kind ≠ .resourceExhausted := by
    intro e now c a came before g failed
    rcases StoreCall.failure_take (Prod.ext rfl rfl) failed with earlier | plain | brought
    · exact before g earlier
    · exact plain.2
    · rcases came with mem | rfl
      · exact (brings a mem g brought).2
      · exact nomatch brought
  obtain ⟨c, finished, kind⟩ := storeFrom_induction (e := e) (h := h) (d := deadline)
    (P := fun _ c => ∀ g, c.phase.failure? = some g → g.kind ≠ .resourceExhausted) stream step take
    nofun s
  rw [failed] at finished
  exact kind g (by rw [finished, StorePhase.failure?])

theorem kind_of_delete (failed : (e.delete name client deadline s).2 = .error g) :
    g.kind ≠ .resourceExhausted := by
  have step : ∀ (e : Endpoint) (now : Moment) (c : DeleteCall),
      (∀ g, c.phase.failure? = some g → g.kind ≠ .resourceExhausted) →
        ∀ g, (c.step e now).2.phase.failure? = some g → g.kind ≠ .resourceExhausted := by
    intro e now c before g failed
    rcases DeleteCall.failure_step (Prod.ext rfl rfl) failed with earlier | plain | ⟨internal, -, -⟩
    · exact before g earlier
    · exact plain.2
    · rw [internal]
      exact nofun
  obtain ⟨c, finished, kind⟩ := delete_induction (e := e) (d := deadline) (P := fun _ c =>
    ∀ g, c.phase.failure? = some g → g.kind ≠ .resourceExhausted) step (nofun : ∀ g,
      (DeleteCall.begin name client deadline).phase.failure? = some g → _) s
  rw [failed] at finished
  exact kind g (by rw [finished, DeletePhase.failure?])

/-! ### All calls

Of the nine requests one is excluded, and it is the one that `acquire` answers.
-/

/-- **Only a call for a lock is refused because somebody else holds it.** -/
theorem kind_of_dispatch {stream : List Arrival} {request : Request}
    (other : ∀ name client, request ≠ .requestLock name client)
    (brings : ∀ a ∈ stream, ∀ g, a.failure? = some g → g.Plain)
    (failed : (e.dispatch deadline s stream request).result = .error g) :
    g.kind ≠ .resourceExhausted := by
  cases request with
  | requestLock name client => exact absurd rfl (other name client)
  | store header => exact kind_of_storeFrom brings (Failure.of_map failed)
  | fetch name mine => exact (plain_of_fetch (Failure.of_map failed)).2
  | delete name client => exact kind_of_delete (Failure.of_map failed)
  | list => exact (plain_of_list (Failure.of_map failed)).2
  | stat name => exact (plain_of_stat (Failure.of_map failed)).2
  | checksum name client sum => exact (plain_of_probe (Failure.of_map failed)).2
  | compareMtime name mtime => exact (plain_of_compareMtime (Failure.of_map failed)).2
  | changeNotification maxWait =>
      have made : (e.manifest s.arrival.instant maxWait.toNat deadline).2.2 = .error g :=
        Failure.of_map failed
      rw [manifest_eq] at made
      exact (Mount.plain_of_enumerate made).2

end Endpoint

end MountSync
