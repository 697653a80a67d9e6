/-
What the counters of an endpoint add up to.

Calls come one after another, and between them anything can happen to the files.  The books of the
calls are kept beside the endpoint: for each call, what it was and what it was answered.  From the
books alone one can tell how often files were stored, removed and sent, and how many bytes that
were, and these are the numbers that the endpoint has counted.  They are counted at different points
of a call, some before its last step, so it has to be seen that nothing fails between counting and
answering; that is what a call is known to have done when it is over.
-/
import MountSync.Proofs.Endpoint.Ending
import Mathlib.Algebra.GroupWithZero.Nat

namespace MountSync

/-! ### Fetches

A fetch counts what it has sent in the step that ends it, so nothing can make it fail behind that:
what it has added is what its phase says, and nothing as long as it is not over.
-/

/-- What a fetch adds to a counter by its result. -/
def FetchCall.gain : Except Failure Nat → Counter → Nat
  | .ok _, .fetchesCompleted => 1
  | .ok sent, .bytesSent => sent
  | _, _ => 0

/-- What a fetch has added to a counter so far. -/
def FetchPhase.gain : FetchPhase → Counter → Nat
  | .finished result => FetchCall.gain result
  | _ => fun _ => 0

/-- Whether what is sent can be told as a number of 64 bits. -/
def FetchPhase.Fits : FetchPhase → Prop
  | .offering _ (.conclude sent) | .finished (.ok sent) => sent < 2 ^ 64
  | _ => True

namespace FetchCall

/-- A fetch has added to the counters what its phase says, and nothing else. -/
structure Account (e₀ e : Endpoint) (c : FetchCall) : Prop where
  tally : ∀ k, k.isTransfer = true → e.tally k = e₀.tally k + c.phase.gain k
  fits : c.phase.Fits

variable {e₀ e : Endpoint} {c : FetchCall}

/-- While a fetch is on its way it adds nothing. -/
theorem Account.goTo (same : e₀.Quiet e)
    {phase : FetchPhase} (none : ∀ k, phase.gain k = 0) (fits : phase.Fits) :
    Account e₀ e (c.goTo phase) where
  tally := fun k transfer => by
    rw [same k transfer]
    show _ = e₀.tally k + phase.gain k
    rw [none]
    rfl
  fits := fits

theorem Account.fail (same : e₀.Quiet e)
    (failure : Failure) : Account e₀ e (c.fail failure) :=
  .goTo same (fun k => by cases k <;> rfl) trivial

theorem account_conclude (same : e₀.Quiet e) {sent : Nat}
    (fits : sent < 2 ^ 64) : Account e₀ (c.conclude e sent).1 (c.conclude e sent).2 where
  tally := fun k transfer => by
    rw [← same k transfer]
    cases k <;> rfl
  fits := fits

/-- A fetch that has not come to its end has added nothing. -/
theorem Account.result (h : Account e₀ e c) :
    (∀ k, k.isTransfer = true → e.tally k
        = e₀.tally k + gain (c.result?.getD (.error .deadlineExceeded)) k) ∧
      ∀ sent, c.result?.getD (.error .deadlineExceeded) = .ok sent → sent < 2 ^ 64 := by
  obtain ⟨tally, fits⟩ := h
  unfold result?
  cases phase : c.phase with
  | finished result =>
      rw [phase] at tally fits
      refine ⟨tally, ?_⟩
      rintro sent told
      obtain rfl : result = .ok sent := told
      exact fits
  | _ =>
      rw [phase] at tally
      refine ⟨fun k transfer => ?_, nofun⟩
      rw [tally k transfer]
      cases k <;> rfl

/-- One case for each phase.  A fetch that is declined is counted, but nothing is transferred. -/
theorem account_step (h : Account e₀ e c) (now : Moment) (limit : Nat) :
    Account e₀ (c.step e now limit).1 (c.step e now limit).2 := by
  have same : (∀ k, c.phase.gain k = 0) → e₀.Quiet e := by
    intro none k transfer
    rw [h.tally k transfer, none]
    rfl
  -- As long as nothing is gained, the counters of transfers are as they were.
  unfold step
  cases phase : c.phase with
  | arrived =>
      have same := same fun k => by rw [phase]; rfl
      show Account e₀ e (c.lookUp e)
      unfold lookUp
      split
      · exact .fail same _
      · exact .fail same _
      · exact .goTo same (fun _ => rfl) trivial
  | found record =>
      have same := same fun k => by rw [phase]; rfl
      have skipped : e₀.Quiet (e.count countSkipped) := by
        intro k transfer
        rw [← same k transfer]
        cases k <;> first | rfl | exact nomatch transfer
      show Account e₀ (c.decideCopy e now record).1 (c.decideCopy e now record).2
      unfold decideCopy
      dsimp only
      split
      · exact .fail same _
      · split
        · exact .goTo same (fun _ => rfl) trivial
        · exact .goTo skipped (fun _ => rfl) trivial
        · exact .goTo skipped (fun _ => rfl) trivial
  | opening record =>
      have same := same fun k => by rw [phase]; rfl
      show Account e₀ e (c.openFile e record)
      unfold openFile
      split
      · exact .goTo same (fun _ => rfl) trivial
      · exact .fail same _
      · exact .fail same _
      · exact .fail same _
  | reading s =>
      have same := same fun k => by rw [phase]; rfl
      dsimp only
      unfold read
      split
      · exact .fail same _
      · dsimp only
        split
        · unfold close
          split
          · exact .fail same _
          · rename_i all
            split
            · exact .goTo same (fun _ => rfl) (Nat.two_pow_pos 64)
            · rw [Decidable.not_not.1 all]
              exact account_conclude same (UInt64.toNat_lt _)
        · exact .goTo same (fun _ => rfl) trivial
  | offering message next => exact h
  | finished result => exact h

theorem account_handOver (h : Account e₀ e c) (outcome : Handover) :
    Account e₀ (c.handOver e outcome).1 (c.handOver e outcome).2 := by
  unfold handOver
  split
  · rename_i message next phase
    have same : e₀.Quiet e := by
      intro k transfer
      rw [h.tally k transfer, phase]
      rfl
    have fits := h.fits
    rw [phase] at fits
    split
    · exact .fail same _
    · exact .fail same _
    · exact .fail same _
    · exact .goTo same (fun _ => rfl) trivial
    · exact account_conclude same fits
  · exact h

/-- A round is a step or a message, so it leaves the books in order, and so does a run. -/
theorem account_run (now : Moment) (limits : Nat → Nat) (reader : Nat → Handover)
    (fuel sent : Nat) (h : Account e₀ e c) :
    Account e₀ (run now limits reader fuel sent e c).1 (run now limits reader fuel sent e c).2.1 := by
  induction fuel generalizing sent e c with
  | zero => exact h
  | succ fuel ih =>
      unfold run
      cases c.phase with
      | finished result => exact h
      | offering message next => exact ih _ (account_handOver h _)
      | _ => exact ih _ (account_step h now _)

end FetchCall

namespace Endpoint

theorem account_fetch (e : Endpoint) (name : String) (mine : Option FileVersion) (d : Deadline)
    (s : Schedule) (limits : Nat → Nat) (reader : Nat → Handover) :
    (∀ k, k.isTransfer = true → (e.fetch name mine d s limits reader).1.tally k
        = e.tally k + FetchCall.gain (e.fetch name mine d s limits reader).2.1 k) ∧
      ∀ sent, (e.fetch name mine d s limits reader).2.1 = .ok sent → sent < 2 ^ 64 := by
  have begun : FetchCall.Account e e (.begin name mine d) := ⟨fun _ _ => rfl, trivial⟩
  have looked := FetchCall.account_step (FetchCall.account_step begun s.arrival (limits 0))
    s.decision (limits 0)
  have entered := FetchCall.account_step (FetchCall.account_step looked s.transfer (limits 0))
    s.transfer (limits 0)
  exact (FetchCall.account_run s.transfer limits reader _ 0 entered).result

end Endpoint

/-! ### Calls that transfer nothing -/

namespace ChangeFeed

variable (f : ChangeFeed)

theorem published_receive (receiver : Nat) : (f.receive receiver).1.published = f.published := by
  unfold receive
  split
  · rfl
  · split
    · rfl
    · split <;> rfl

/-- Nothing is told by waiting. -/
theorem published_poll (now : Nat) (w : Waiter) : (w.poll f now).1.published = f.published := by
  have once := f.published_receive w.receiver
  unfold Waiter.poll
  split
  · rename_i g e received
    rw [received] at once
    exact once
  · rename_i g received
    rw [received] at once
    split <;> exact once
  · rename_i g missed received
    rw [received] at once
    have twice := g.published_receive w.receiver
    split
    · rename_i g' e received'
      rw [received'] at twice
      exact twice.trans once
    · rename_i g' reception received'
      rw [received'] at twice
      exact twice.trans once

end ChangeFeed

namespace Endpoint

variable {e e' e'' : Endpoint}

theorem Quiet.trans (h : e.Quiet e') (h' : e'.Quiet e'') : e.Quiet e'' :=
  fun k transfer => (h' k transfer).trans (h k transfer)

theorem quiet_withFeed {f : ChangeFeed} (same : f.published = e.feed.published) :
    e.Quiet (e.withFeed f) := by
  intro k transfer
  cases k with
  | published => exact same
  | _ => first | rfl | exact nomatch transfer

theorem quiet_requestLock (e : Endpoint) (name : String) (client : ClientId) (d : Deadline)
    (now : Nat) : e.Quiet (e.requestLock name client d now).1 := by
  unfold requestLock
  split
  · exact fun _ _ => rfl
  · split
    · exact fun _ _ => rfl
    · split <;> exact e.quiet_withLocks _

theorem quiet_probe (e : Endpoint) (name : String) (client : ClientId) (sum : UInt32)
    (d : Deadline) (now : Moment) : e.Quiet (e.probe name client sum d now).1 := by
  have step : ∀ (e' : Endpoint) (now : Moment) (c : ProbeCall), e.Quiet e' →
      e.Quiet (c.step e' now).1 := by
    intro e' now c quiet
    unfold ProbeCall.step
    split
    · split
      · exact quiet
      · split <;> exact quiet
    · split <;> exact quiet
    · exact quiet.trans (e'.quiet_withLocks _)
    · exact quiet
  obtain ⟨-, -, quiet⟩ := probe_induction (P := fun e' _ => e.Quiet e') step
    (show e.Quiet e from fun _ _ => rfl) now
  exact quiet

theorem quiet_abandonExpired (e : Endpoint) (name : String) (client : ClientId) :
    e.Quiet (e.abandonExpired name client) := by
  have step : ∀ (e : Endpoint) (c : ExpiryCall), e.Quiet (c.step e).1 := by
    intro e c
    unfold ExpiryCall.step
    split
    · split <;> exact fun _ _ => rfl
    · exact fun _ _ => rfl
    · exact e.quiet_withLocks _
    · exact fun _ _ => rfl
  let r₁ := (ExpiryCall.begin name client).step e
  let r₂ := r₁.2.step r₁.1
  exact ((step e (.begin name client)).trans (step r₁.1 r₁.2)).trans (step r₂.1 r₂.2)

theorem quiet_manifest (e : Endpoint) (now maxWait : Nat) (d : Deadline) :
    e.Quiet (e.manifest now maxWait d).1 := by
  have begun : e.Quiet (ManifestCall.begin e now maxWait d).1 := by
    unfold ManifestCall.begin
    split
    · exact fun _ _ => rfl
    · exact quiet_withFeed rfl
  have polled : ∀ (e : Endpoint) (now : Nat) (c : ManifestCall), e.Quiet (c.poll e now).1 := by
    intro e now c
    cases c with
    | finished result => exact fun _ _ => rfl
    | waiting w =>
        have told := e.feed.published_poll now w
        unfold ManifestCall.poll
        dsimp only
        split
        · rename_i waiting
          rw [waiting] at told
          exact quiet_withFeed told
        · rename_i woken
          rw [woken] at told
          exact quiet_withFeed told
  exact begun.trans (polled _ _ _)

theorem quiet_expire (e : Endpoint) (stream : List Arrival) (request : Request) :
    e.Quiet (e.expire stream request).endpoint := by
  unfold expire
  dsimp only
  split
  · exact e.quiet_abandonExpired _ _
  · exact fun _ _ => rfl

end Endpoint

/-! ### The books -/

/-- Whether a visit moves the content of a file, or removes it. -/
def Visit.isTransfer : Visit → Bool
  | .call (.store _) _ _ _ | .call (.delete _ _) _ _ _ | .call (.fetch _ _) _ _ _
  | .fetch _ _ _ _ _ _ => true
  | _ => false

/-- The bytes that a reply says were sent. -/
def Reply.bytesSent : Reply → Nat
  | .fetched bytes => bytes.toNat
  | _ => 0

/-- A visit, and what was answered. -/
structure Answered where
  visit : Visit
  result : Except Failure Reply

namespace Answered

/-- The header of a file that was stored. -/
def stored? : Answered → Option StoreHeader
  | ⟨.call (.store h) _ _ _, .ok _⟩ => some h
  | _ => none

/-- Whether a file was removed. -/
def isRemoval : Answered → Bool
  | ⟨.call (.delete _ _) _ _ _, .ok _⟩ => true
  | _ => false

/-- How many bytes were sent, as the answer to a fetch. -/
def fetched? : Answered → Option Nat
  | ⟨.call (.fetch _ _) _ _ _, .ok reply⟩ => some reply.bytesSent
  | ⟨.fetch _ _ _ _ _ _, .ok reply⟩ => some reply.bytesSent
  | _ => none

/-- What a counter is to be by the books. -/
def total (books : List Answered) : Counter → Nat
  | .storesCompleted => (books.filterMap stored?).length
  | .deletesCompleted => books.countP isRemoval
  | .fetchesCompleted => (books.filterMap fetched?).length
  | .bytesReceived => ((books.filterMap stored?).map fun h => h.size.toNat).sum
  | .bytesSent => (books.filterMap fetched?).sum
  | .published => (books.filterMap stored?).length + books.countP isRemoval
  | _ => 0

theorem total_append (books more : List Answered) (k : Counter) :
    total (books ++ more) k = total books k + total more k := by
  cases k <;> simp [total]
  omega

/-! ### What one call adds to the books

Here the answer decides alone.  A store that is answered with success has counted one file and all
of its bytes, and one that is answered with a failure has counted none.
-/

theorem total_store (h : StoreHeader) (d : Deadline) (t : Schedule) (stream : List Arrival)
    (result : Except Failure String) (k : Counter) :
    total [⟨.call (.store h) d t stream, result.map .stored⟩] k
      = if result.isOk then h.gain k else 0 := by
  cases result <;> cases k <;> rfl

theorem total_delete (name : String) (client : ClientId) (d : Deadline) (t : Schedule)
    (stream : List Arrival) (result : Except Failure Unit) (k : Counter) :
    total [⟨.call (.delete name client) d t stream, result.map fun _ => .empty⟩] k
      = if result.isOk then DeleteCall.gain k else 0 := by
  cases result <;> cases k <;> rfl

/-- What is no entry of any kind adds nothing. -/
theorem total_of_nothing {a : Answered} (stored : a.stored? = none) (removal : a.isRemoval = false)
    (fetched : a.fetched? = none) (k : Counter) : total [a] k = 0 := by
  cases k <;> simp [total, stored, removal, fetched]

/-- A fetch is answered the number of bytes that it has counted, if that can be told. -/
theorem total_fetch {v : Visit} (fetch : ∀ result, stored? ⟨v, result⟩ = none ∧
      isRemoval ⟨v, result⟩ = false ∧
        fetched? ⟨v, result⟩ = result.toOption.map Reply.bytesSent) {result : Except Failure Nat}
    (fits : ∀ sent, result = .ok sent → sent < 2 ^ 64) (k : Counter) :
    total [⟨v, result.map fun bytes => .fetched (.ofNat bytes)⟩] k = FetchCall.gain result k := by
  cases result with
  | error failure =>
      obtain ⟨stored, removal, fetched⟩ := fetch (.error failure)
      exact (total_of_nothing stored removal fetched k).trans (by cases k <;> rfl)
  | ok sent =>
      obtain ⟨stored, removal, fetched⟩ := fetch (.ok (.fetched (.ofNat sent)))
      have told : (UInt64.ofNat sent).toNat = sent := by
        rw [UInt64.toNat_ofNat']
        exact Nat.mod_eq_of_lt (fits sent rfl)
      show total [⟨v, .ok (.fetched (.ofNat sent))⟩] k = _
      cases k <;> simp [total, stored, removal, fetched, Except.toOption, Reply.bytesSent, told,
        FetchCall.gain]

theorem total_other {v : Visit} (other : v.isTransfer = false) (result : Except Failure Reply)
    (k : Counter) : total [⟨v, result⟩] k = 0 := by
  cases v with
  | fetch name mine d t limits reader => exact nomatch other
  | expiry request => exact total_of_nothing rfl rfl rfl k
  | call request d t stream =>
      cases request <;> first | exact total_of_nothing rfl rfl rfl k | exact nomatch other

end Answered

namespace Endpoint

open Answered

/-- A visit that is no transfer is one of the calls that count nothing. -/
theorem quiet_attend (e : Endpoint) {v : Visit} (other : v.isTransfer = false) :
    e.Quiet (e.attend v).endpoint := by
  cases v with
  | fetch name mine d t limits reader => exact nomatch other
  | expiry request => exact e.quiet_expire [] request
  | call request d t stream =>
      cases request with
      | requestLock name client => exact e.quiet_requestLock name client d t.arrival.instant
      | list => exact fun _ _ => rfl
      | stat name => exact fun _ _ => rfl
      | checksum name client sum => exact e.quiet_probe name client sum d t.arrival
      | compareMtime name mtime => exact fun _ _ => rfl
      | changeNotification maxWait =>
          exact e.quiet_manifest t.arrival.instant maxWait.toNat d
      | _ => exact nomatch other

/-- A call counts what it is answered to have done. -/
theorem tally_attend (e : Endpoint) (v : Visit) {k : Counter} (transfer : k.isTransfer = true) :
    (e.attend v).endpoint.tally k = e.tally k + total [⟨v, (e.attend v).result⟩] k := by
  cases moves : v.isTransfer with
  | false =>
      rw [total_other moves]
      exact e.quiet_attend moves k transfer
  | true =>
      cases v with
      | expiry request => exact nomatch moves
      | fetch name mine d t limits reader =>
          obtain ⟨tally, fits⟩ := e.account_fetch name mine d t limits reader
          refine (tally k transfer).trans (congrArg (e.tally k + ·) (total_fetch ?_ fits k).symm)
          rintro (failure | reply) <;> exact ⟨rfl, rfl, rfl⟩
      | call request d t stream =>
          cases request with
          | store h =>
              obtain ⟨closed, -⟩ := e.closed_storeFrom h d t stream
              exact (closed.tally k transfer).trans
                (congrArg (e.tally k + ·) (total_store h d t stream _ k).symm)
          | delete name client =>
              have closed := e.closed_delete name client d t
              exact (closed.tally k transfer).trans
                (congrArg (e.tally k + ·) (total_delete name client d t stream _ k).symm)
          | fetch name mine =>
              obtain ⟨tally, fits⟩ :=
                e.account_fetch name mine d t (fun _ => readLimit) fun _ => .delivered
              refine (tally k transfer).trans
                (congrArg (e.tally k + ·) (total_fetch ?_ fits k).symm)
              rintro (failure | reply) <;> exact ⟨rfl, rfl, rfl⟩
          | _ => exact nomatch moves

/-! ### One call after another

Whoever else changes the mount counts nothing, so the books are those of the calls.
-/

/-- What happens to an endpoint: somebody changes what is in the mount, or a call is made. -/
inductive Happening
  | change (m : Mount)
  | visit (v : Visit)

/-- Lets things happen one after another, and keeps books of the calls. -/
def live (e : Endpoint) : List Happening → Endpoint × List Answered
  | [] => (e, [])
  | .change m :: rest => (e.withMount m).live rest
  | .visit v :: rest =>
    let o := e.attend v
    let (e, books) := o.endpoint.live rest
    (e, ⟨v, o.result⟩ :: books)

/-- Whatever has happened, the counters have gone up by what is in the books. -/
theorem tally_live (e : Endpoint) (happenings : List Happening) {k : Counter}
    (transfer : k.isTransfer = true) :
    (e.live happenings).1.tally k = e.tally k + total (e.live happenings).2 k := by
  induction happenings generalizing e with
  | nil => cases k <;> rfl
  | cons first rest ih =>
      cases first with
      | change m => exact ih (e.withMount m)
      | visit v =>
          rw [live]
          dsimp only
          rw [← List.singleton_append, total_append, ih, e.tally_attend v transfer, Nat.add_assoc]

/-- **The counters of an endpoint add up.**

Whatever calls have been made on an endpoint, one after another, and whatever has happened to the
files in between: as many changes were told as files were stored and removed; the counters say how
many files were stored, removed and sent by calls that were answered so, and how many bytes those
were; and all other calls leave these numbers alone. -/
theorem counters_add_up (mount : Mount) (chunkSize feedCapacity : Nat)
    (happenings : List Happening) :
    let r := (Endpoint.create mount chunkSize feedCapacity).live happenings
    let stored := r.2.filterMap stored?
    let fetched := r.2.filterMap fetched?
    r.1.feed.published = r.1.stats.storesCompleted + r.1.stats.deletesCompleted ∧
    r.1.stats.storesCompleted = stored.length ∧
    r.1.stats.deletesCompleted = r.2.countP isRemoval ∧
    r.1.stats.bytesReceived = (stored.map fun h => h.size.toNat).sum ∧
    r.1.stats.fetchesCompleted = fetched.length ∧
    r.1.stats.bytesSent = fetched.sum ∧
    ∀ v : Visit, v.isTransfer = false → r.1.Quiet (r.1.attend v).endpoint := by
  intro r stored fetched
  have counts : ∀ k, k.isTransfer = true → r.1.tally k = total r.2 k := by
    intro k transfer
    refine (tally_live _ happenings transfer).trans ?_
    cases k <;> exact Nat.zero_add _
  have stores := counts .storesCompleted rfl
  have deletes := counts .deletesCompleted rfl
  have told := counts .published rfl
  refine ⟨?_, stores, deletes, counts .bytesReceived rfl, counts .fetchesCompleted rfl,
    counts .bytesSent rfl, fun v other => r.1.quiet_attend other⟩
  show r.1.tally .published = r.1.tally .storesCompleted + r.1.tally .deletesCompleted
  rw [stores, deletes, told]
  rfl

end Endpoint

end MountSync
