/-
A store that runs alone puts a whole file in place, or nothing.

When it succeeds is a matter of what it finds and of what its stream brings: the caller may, in time;
the copy that is there is to be replaced; a temporary file can be made and can be given the name; and
the stream is nothing but pieces up to its end, which together are what was announced.  A stream can
go wrong at every piece, and a piece too many is found out as soon as it comes, but all of that is
one condition on the whole.
-/
import MountSync.Proofs.Endpoint.Ending

namespace MountSync

/-- A stream brings a content exactly if it is pieces of that content, and then its end. -/
theorem Arrival.contentOf?_eq_some_iff {stream : List Arrival} {content : Bytes} :
    contentOf? stream = some content ↔
      ∃ (pieces : List Bytes) (rest : List Arrival),
        stream = pieces.map .chunk ++ .ended :: rest ∧ pieces.flatten = content := by
  constructor
  · intro brought
    induction stream generalizing content with
    | nil => exact nomatch brought
    | cons a rest ih =>
        cases a with
        | chunk piece =>
            obtain ⟨more, brings, rfl⟩ := Option.map_eq_some_iff.1 brought
            obtain ⟨pieces, left, rfl, rfl⟩ := ih brings
            exact ⟨piece :: pieces, left, rfl, rfl⟩
        | ended =>
            cases brought
            exact ⟨[], rest, rfl, rfl⟩
        | refused failure => exact nomatch brought
        | broken failure => exact nomatch brought
        | late => exact nomatch brought
  · rintro ⟨pieces, rest, rfl, rfl⟩
    induction pieces with
    | nil => rfl
    | cons piece pieces ih =>
        rw [List.map_cons, List.cons_append, contentOf?, ih]
        rfl

/-- What it takes for a store to succeed. -/
structure StoreCall.Succeeds (e : Endpoint) (h : StoreHeader) (deadline : Deadline) (s : Schedule)
    (stream : List Arrival) : Prop where
  accepted : Mount.accepts h.name = true
  arrival : deadline.isExpired s.arrival.instant = false
  owner : e.locks.ownerOf h.name = some h.client
  found : ∃ found, e.mount.statFile h.name = .ok found ∧
    resolve .store (found.map FileRecord.version) h.version = .proceed
  decision : deadline.isExpired s.decision.instant = false
  /-- Nothing but pieces comes up to the end, and they are what was announced. -/
  brings : ∃ (pieces : List Bytes) (rest : List Arrival),
    stream = pieces.map .chunk ++ .ended :: rest ∧
      pieces.flatten.length = h.size.toNat ∧ checksum pieces.flatten = h.checksum
  /-- A temporary file can be made. -/
  temporary : ∃ r, e.mount.createPartial s.transfer.calendar = .ok r
  /-- The name can be given to it. -/
  free : e.mount.get? (.text h.name) ≠ some .directory

namespace Endpoint

variable {e : Endpoint} {h : StoreHeader} {d : Deadline} {s : Schedule} {stream : List Arrival}

theorem succeeds_iff : StoreCall.Succeeds e h d s stream ↔
    StoreCall.Takes e h d s ∧
      ∃ content, Arrival.contentOf? stream = some content ∧ h.Fulfilled e.mount content := by
  constructor
  · rintro ⟨accepted, arrival, owner, found, decision, ⟨pieces, rest, is, length, sum⟩,
      ⟨⟨m, temporary⟩, made⟩, free⟩
    have entered := Mount.enter_of_createPartial made
    have brought := Arrival.contentOf?_eq_some_iff.2 ⟨pieces, rest, is, rfl⟩
    exact ⟨⟨accepted, arrival, owner, found, decision, entered⟩, _, brought, length, sum, free⟩
  · rintro ⟨⟨accepted, arrival, owner, found, decision, entered⟩, content, brought,
      length, sum, free⟩
    obtain ⟨pieces, rest, is, rfl⟩ := Arrival.contentOf?_eq_some_iff.1 brought
    have made := Mount.createPartial_of_enter entered s.transfer.calendar
    exact ⟨accepted, arrival, owner, found, decision, ⟨pieces, rest, is, length, sum⟩, made, free⟩

/-- A store that fails has left the mount as it was, and one that succeeds has put in place what its
stream has brought. -/
theorem store_cases (e : Endpoint) (h : StoreHeader) (d : Deadline) (s : Schedule)
    (stream : List Arrival) :
    (StoreCall.Succeeds e h d s stream ∧ (e.store h d s stream).2 = .ok h.name ∧
      ∃ content, Arrival.contentOf? stream = some content ∧
        e.mount.Placed s.transfer.calendar h.name content (e.store h d s stream).1.mount) ∨
    (¬ StoreCall.Succeeds e h d s stream ∧
      (∃ failure, (e.store h d s stream).2 = .error failure) ∧
        e.mount.SameAs (e.store h d s stream).1.mount) := by
  by_cases takes : StoreCall.Takes e h d s
  · obtain ⟨e', result, rest, ended, ends⟩ := storeFrom_of_takes takes stream
    have result' : e.store h d s stream = (e', result) := by
      rw [store, ended]
    rw [result']
    cases brought : Arrival.contentOf? stream with
    | none =>
        rw [brought] at ends
        cases ends with
        | unstored unfulfilled unstored =>
            refine Or.inr ⟨fun succeeds => ?_, ⟨_, rfl⟩, unstored.mount⟩
            obtain ⟨-, content, brings, -⟩ := succeeds_iff.1 succeeds
            exact nomatch brought.symm.trans brings
    | some content =>
        rw [brought] at ends
        cases ends with
        | stored stored =>
            exact Or.inl ⟨succeeds_iff.2 ⟨takes, content, brought, stored.fulfilled⟩, rfl, content,
              rfl, stored.placed⟩
        | unstored unfulfilled unstored =>
            refine Or.inr ⟨fun succeeds => ?_, ⟨_, rfl⟩, unstored.mount⟩
            obtain ⟨-, content', brings, fulfilled⟩ := succeeds_iff.1 succeeds
            obtain rfl := Option.some.inj (brought.symm.trans brings)
            exact unfulfilled content rfl fulfilled
  · obtain ⟨e', failure, rest, stored, mount⟩ := storeFrom_of_not_takes takes stream
    have result' : e.store h d s stream = (e', .error failure) := by
      rw [store, stored]
    rw [result']
    exact Or.inr ⟨fun succeeds => takes (succeeds_iff.1 succeeds).1, ⟨failure, rfl⟩,
      .of_eq mount⟩

/-- **A store is all or nothing.**

It succeeds exactly if everything is as it has to be.  Then the name is that of a file with the
content that the stream has brought, and one change was told.  Otherwise no entry of the mount is
different, and nothing was told.  In either case no other entry is different, and there is no
temporary file that was not there before. -/
theorem store_all_or_nothing (e : Endpoint) (h : StoreHeader) (d : Deadline) (s : Schedule)
    (stream : List Arrival) :
    let r := e.store h d s stream
    (r.2.isOk = true ↔ StoreCall.Succeeds e h d s stream) ∧
    (r.2.isOk = true →
      (∃ (pieces : List Bytes) (rest : List Arrival) (f : File),
        stream = pieces.map .chunk ++ .ended :: rest ∧
          r.1.mount.get? (.text h.name) = some (.file f) ∧ f.read = .ok pieces.flatten) ∧
      r.1.feed.events = e.feed.events.push ⟨h.name, .stored⟩) ∧
    (r.2.isOk = false →
      (∀ entry, r.1.mount.get? entry = e.mount.get? entry) ∧ r.1.feed.events = e.feed.events) ∧
    (∀ entry, entry ≠ .text h.name → r.1.mount.get? entry = e.mount.get? entry) ∧
    ∀ entry, Mount.isTemporary entry = true → (r.1.mount.get? entry).isSome →
      (e.mount.get? entry).isSome := by
  intro r
  have feed : r.1.feed = if r.2.isOk then (e.feed.publish h.name .stored).1 else e.feed :=
    (e.closed_storeFrom h d s stream).1.feed
  have temporary : ∀ entry, Mount.isTemporary entry = true → (r.1.mount.get? entry).isSome →
      (e.mount.get? entry).isSome :=
    fun _ => e.isSome_of_receive (.call (.store h) d s stream)
  rcases e.store_cases h d s stream with
    ⟨succeeds, ok, content, brought, placed⟩ | ⟨fails, ⟨failure, error⟩, same⟩
  · obtain ⟨pieces, rest, is, rfl⟩ := Arrival.contentOf?_eq_some_iff.1 brought
    obtain ⟨f, puts, content, -, kept⟩ := placed.entry
    have read : f.read = .ok pieces.flatten := by rw [File.read, kept, content]
    rw [show r.2 = .ok h.name from ok] at feed ⊢
    refine ⟨iff_of_true rfl succeeds, fun _ => ⟨⟨pieces, rest, f, is, puts.entry, read⟩, ?_⟩,
      fun failed => absurd failed.symm Bool.false_ne_true,
      fun entry other => puts.get?_ne other, temporary⟩
    exact congrArg ChangeFeed.events feed
  · rw [show r.2 = .error failure from error] at feed ⊢
    exact ⟨iff_of_false Bool.false_ne_true fails, fun stored => absurd stored Bool.false_ne_true,
      fun _ => ⟨same.get?_eq, congrArg ChangeFeed.events feed⟩,
      fun entry _ => same.get?_eq entry, temporary⟩

end Endpoint

end MountSync
