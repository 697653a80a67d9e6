/-
What kind of frame is read back.

A frame that does not fit cannot be told from its bytes any more, but these still begin with the
number of its kind.  So whatever is read back, if anything is, is a frame of the same kind.
-/
import MountSync.Proofs.Frame.RoundTrip
import MountSync.Proofs.Server.Shape

namespace MountSync

namespace Frame

/-- Whatever a reader takes for a value, the value has a property. -/
def Gives {α : Type} (read : Reader α) (P : α → Prop) : Prop :=
  ∀ input a rest, read input = .ok (a, rest) → P a

section

variable {α β : Type} {read : Reader α} {next : α → Reader β} {P : β → Prop}

theorem gives_pure {b : β} (h : P b) : Gives (pure b) P := by
  intro input a rest taken
  cases taken
  exact h

/-- What is read last decides. -/
theorem Gives.bind (h : ∀ a, Gives (next a) P) : Gives (read >>= next) P := by
  intro input b rest taken
  have both : Reader.andThen read next input = .ok (b, rest) := taken
  rw [Reader.andThen] at both
  split at both
  · cases both
  · exact h _ _ _ _ both

/-- What follows bytes that are read back decides. -/
theorem Gives.after {bytes more rest : Bytes} {a : α} {b : β} (h : Reads read bytes a)
    (gives : Gives (next a) P) (taken : (read >>= next) (bytes ++ more) = .ok (b, rest)) : P b := by
  rw [h.bind_apply] at taken
  exact gives _ _ _ taken

end

end Frame

open MountSync.Frame

/-- A request that is answered in no other ways than another one. -/
def Request.Alike (r r' : Request) : Prop := ∀ reply : Reply, reply.Suits r' → reply.Suits r

/-- A reply that answers what another one does. -/
def Reply.Alike (r r' : Reply) : Prop := ∀ request : Request, r.Suits request → r'.Suits request

/-- Whatever is read back of a request is one of its kind. -/
theorem Frame.alike_of_readRequest {r r' : Request} {rest : Bytes}
    (taken : readRequest (writeRequest r) = .ok (r', rest)) : r.Alike r' := by
  cases r with
  | requestLock name client =>
      refine Gives.after (reads_index (n := 0) (by decide)) ?_ taken
      exact .bind fun _ => .bind fun _ =>
        gives_pure fun reply suits => by cases reply <;> exact suits
  | store header =>
      refine Gives.after (reads_index (n := 1) (by decide)) ?_ taken
      exact .bind fun _ => gives_pure fun reply suits => by cases reply <;> exact suits
  | fetch name mine =>
      refine Gives.after (reads_index (n := 2) (by decide)) ?_ taken
      exact .bind fun _ => .bind fun _ =>
        gives_pure fun reply suits => by cases reply <;> exact suits
  | delete name client =>
      refine Gives.after (reads_index (n := 3) (by decide)) ?_ taken
      exact .bind fun _ => .bind fun _ =>
        gives_pure fun reply suits => by cases reply <;> exact suits
  | list =>
      cases taken
      exact fun reply suits => suits
  | stat name =>
      refine Gives.after (reads_index (n := 5) (by decide)) ?_ taken
      exact .bind fun _ => gives_pure fun reply suits => by cases reply <;> exact suits
  | checksum name client sum =>
      refine Gives.after (reads_index (n := 6) (by decide)) ?_ taken
      exact .bind fun _ => .bind fun _ => .bind fun _ =>
        gives_pure fun reply suits => by cases reply <;> exact suits
  | compareMtime name mtime =>
      refine Gives.after (reads_index (n := 7) (by decide)) ?_ taken
      exact .bind fun _ => .bind fun _ =>
        gives_pure fun reply suits => by cases reply <;> exact suits
  | changeNotification maxWait =>
      refine Gives.after (reads_index (n := 8) (by decide)) ?_ taken
      exact .bind fun _ => gives_pure fun reply suits => by cases reply <;> exact suits

/-- Whatever is read back of a reply is one of its kind. -/
theorem Frame.alike_of_readReply {r r' : Reply} {rest : Bytes}
    (taken : readReply (writeReply r) = .ok (r', rest)) : r.Alike r' := by
  cases r with
  | empty =>
      cases taken
      exact fun request suits => suits
  | stored name =>
      refine Gives.after (reads_index (n := 1) (by decide)) ?_ taken
      exact .bind fun _ => gives_pure fun request suits => by cases request <;> exact suits
  | fetched bytes =>
      refine Gives.after (reads_index (n := 2) (by decide)) ?_ taken
      exact .bind fun _ => gives_pure fun request suits => by cases request <;> exact suits
  | list entries =>
      refine Gives.after (reads_index (n := 3) (by decide)) ?_ taken
      exact .bind fun _ => gives_pure fun request suits => by cases request <;> exact suits
  | stat record =>
      refine Gives.after (reads_index (n := 4) (by decide)) ?_ taken
      exact .bind fun _ => gives_pure fun request suits => by cases request <;> exact suits
  | checksum sum =>
      refine Gives.after (reads_index (n := 5) (by decide)) ?_ taken
      exact .bind fun _ => gives_pure fun request suits => by cases request <;> exact suits
  | sameTimestamp same =>
      refine Gives.after (reads_index (n := 6) (by decide)) ?_ taken
      exact .bind fun _ => gives_pure fun request suits => by cases request <;> exact suits
  | manifest records =>
      refine Gives.after (reads_index (n := 7) (by decide)) ?_ taken
      exact .bind fun _ => gives_pure fun request suits => by cases request <;> exact suits

/-- Whatever is read back of a status has its code. -/
theorem Frame.code_of_readStatus {s s' : Status} {rest : Bytes}
    (taken : readStatus (writeStatus s) = .ok (s', rest)) : s'.code = s.code := by
  have same : ∀ message : String,
      Gives (pure (⟨s.code, message⟩ : Status)) fun s' => s'.code = s.code :=
    fun message => gives_pure rfl
  exact Gives.after (P := fun s' : Status => s'.code = s.code) (reads_code s.code) (.bind same)
    taken

/-- A call is read back as a call of its kind, if it is read back at all. -/
theorem ClientFrame.decode_call {timeout : UInt64} {request : Request} {f : ClientFrame}
    (read : decode (ClientFrame.call timeout request).encode = .ok f) :
    ∃ request', f = .call timeout request' ∧ request.Alike request' := by
  have index : Reads (readNat .word) (writeNat 0) 0 := reads_index (by decide)
  have call : readClientFrame (ClientFrame.call timeout request).encode
      = Reader.andThen readRequest (fun r => Reader.yield (.call timeout r))
        (writeRequest request) :=
    (index.bind_apply _ _).trans ((reads_long timeout).bind_apply _ _)
  rw [decode, call, Reader.andThen] at read
  cases taken : readRequest (writeRequest request) with
  | error fault =>
      rw [taken] at read
      cases read
  | ok r =>
      rw [taken] at read
      cases read
      exact ⟨r.1, rfl, alike_of_readRequest taken⟩

/-- A call for a lock and the delete that follows it are read back as ones of the same file and the
same client, if they are read back at all. -/
theorem ClientFrame.decode_requestLock (timeout : UInt64) (name client : String) :
    (∃ fault, decode (ClientFrame.call timeout (.requestLock name client)).encode
        = .error fault) ∨
      ∃ name' client', decode (ClientFrame.call timeout (.requestLock name client)).encode
          = .ok (.call timeout (.requestLock name' client')) ∧
        decode (ClientFrame.call timeout (.delete name client)).encode
          = .ok (.call timeout (.delete name' client')) := by
  have index : Reads (readNat .word) (writeNat 0) 0 := reads_index (by decide)
  have third : Reads (readNat .word) (writeNat 3) 3 := reads_index (by decide)
  have call : ∀ request : Request, readClientFrame (ClientFrame.call timeout request).encode
      = Reader.andThen readRequest (fun r => Reader.yield (.call timeout r))
        (writeRequest request) := fun request =>
    (index.bind_apply _ _).trans ((reads_long timeout).bind_apply _ _)
  have lock : readRequest (writeRequest (.requestLock name client))
      = Reader.andThen readText (fun n => readText.andThen fun c => Reader.yield (.requestLock n c))
        (writeText name ++ writeText client) := index.bind_apply _ _
  have delete : readRequest (writeRequest (.delete name client))
      = Reader.andThen readText (fun n => readText.andThen fun c => Reader.yield (.delete n c))
        (writeText name ++ writeText client) := third.bind_apply _ _
  rw [decode, decode, call, call, Reader.andThen, Reader.andThen, lock, delete, Reader.andThen,
    Reader.andThen]
  cases readText (writeText name ++ writeText client) with
  | error fault => exact Or.inl ⟨fault, rfl⟩
  | ok n =>
      dsimp only
      rw [Reader.andThen, Reader.andThen]
      cases readText n.2 with
      | error fault => exact Or.inl ⟨fault, rfl⟩
      | ok c => exact Or.inr ⟨n.1, c.1, rfl, rfl⟩

/-- A reply is read back as a reply of its kind, if it is read back at all. -/
theorem ServerFrame.decode_reply {reply : Reply} {f : ServerFrame}
    (read : decode (ServerFrame.reply reply).encode = .ok f) :
    ∃ reply', f = .reply reply' ∧ reply.Alike reply' := by
  have index : Reads (readNat .word) (writeNat 1) 1 := reads_index (by decide)
  have side : Reads (readNat .word) (writeNat 0) 0 := reads_index (by decide)
  have whole : readServerFrame (ServerFrame.reply reply).encode
      = Reader.andThen readReply (fun r => Reader.yield (.reply r)) (writeReply reply) :=
    (index.bind_apply _ _).trans (side.bind_apply _ _)
  rw [decode, whole, Reader.andThen] at read
  cases taken : readReply (writeReply reply) with
  | error fault =>
      rw [taken] at read
      cases read
  | ok r =>
      rw [taken] at read
      cases read
      exact ⟨r.1, rfl, alike_of_readReply taken⟩

/-- What is read back as a refusal is one, and of the same code. -/
theorem ServerFrame.refusal_of_decode {f : ServerFrame} {status : Status}
    (read : decode f.encode = .ok (.refusal status)) :
    ∃ status', f = .refusal status' ∧ status'.code = status.code := by
  cases f with
  | fetch chunk =>
      have index : Reads (readNat .word) (writeNat 0) 0 := reads_index (by decide)
      have whole : readServerFrame (ServerFrame.fetch chunk).encode
          = (readChunk >>= fun c => pure (.fetch c)) (writeChunk chunk) := index.bind_apply _ _
      have kind : Gives (readChunk >>= fun c => pure (ServerFrame.fetch c))
          (fun f => ∃ c, f = .fetch c) := .bind fun c => gives_pure ⟨c, rfl⟩
      rw [decode, whole] at read
      cases taken : (readChunk >>= fun c => pure (ServerFrame.fetch c)) (writeChunk chunk) with
      | error fault =>
          rw [taken] at read
          cases read
      | ok r =>
          rw [taken] at read
          obtain ⟨c, is⟩ := kind _ _ _ taken
          cases is.symm.trans (Except.ok.inj read)
  | reply reply =>
      obtain ⟨reply', is, -⟩ := decode_reply read
      cases is
  | refusal status' =>
      have index : Reads (readNat .word) (writeNat 1) 1 := reads_index (by decide)
      have whole : readServerFrame (ServerFrame.refusal status').encode
          = (readStatus >>= fun s => pure (.refusal s)) (writeStatus status') :=
        (index.bind_apply _ _).trans (index.bind_apply _ _)
      refine ⟨status', rfl, ?_⟩
      have both : (readStatus >>= fun s => pure (ServerFrame.refusal s)) (writeStatus status')
          = readStatus.andThen (fun s => Reader.yield (.refusal s)) (writeStatus status') := rfl
      rw [decode, whole, both, Reader.andThen] at read
      cases taken : readStatus (writeStatus status') with
      | error fault =>
          rw [taken] at read
          cases read
      | ok r =>
          rw [taken] at read
          cases read
          exact (code_of_readStatus taken).symm

/-- The frame that tells a result is read back as one that tells the same kind of result. -/
theorem ServerFrame.decode_ofResult {result : Except Failure Reply} {f : ServerFrame}
    (read : decode (ServerFrame.ofResult result).encode = .ok f) :
    (∃ status, f = .refusal status) ∨
      ∃ reply reply', result = .ok reply ∧ f = .reply reply' ∧ reply.Alike reply' := by
  cases result with
  | error failure =>
      rcases decode_refusal failure.status with ⟨fault, refused⟩ | ⟨status, refused⟩
      · exact nomatch refused.symm.trans read
      · exact Or.inl ⟨status, (Except.ok.inj (refused.symm.trans read)).symm⟩
  | ok reply =>
      obtain ⟨reply', is, alike⟩ := decode_reply read
      exact Or.inr ⟨reply, reply', rfl, is, alike⟩

end MountSync
