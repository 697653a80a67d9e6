/-
What is written is read back.

A reader *reads* a value off some bytes if it takes exactly these bytes for it, whatever follows
them.  This says at once that nothing is lost and that nothing behind a value is touched, and it
composes: if one reader reads the first part of some bytes and the next one the second part, both
together read the whole.  So every type needs one statement, which follows from those of its
fields in the order in which they are written.

A length takes at most eight bytes, so a text, a list or a content *fits* if it has fewer than 2⁶⁴
items.  Nothing that is held in memory is longer.
-/
import MountSync.Frame.Reader
import Mathlib.Data.Set.Function
import Mathlib.Algebra.Group.Nat.Defs

namespace MountSync

namespace Frame

/-- Whatever follows them, the reader takes these bytes, no more and no less, for `a`. -/
def Reads {α : Type} (read : Reader α) (bytes : Bytes) (a : α) : Prop :=
  ∀ rest, read (bytes ++ rest) = .ok (a, rest)

section

variable {α β : Type} {read : Reader α} {next : α → Reader β} {bytes more : Bytes} {a : α} {b : β}

theorem Reads.bind (h : Reads read bytes a) (h' : Reads (next a) more b) :
    Reads (read >>= next) (bytes ++ more) b := by
  intro rest
  have first : read (bytes ++ (more ++ rest)) = .ok (a, more ++ rest) := h (more ++ rest)
  show Reader.andThen read next (bytes ++ more ++ rest) = .ok (b, rest)
  rw [Reader.andThen, List.append_assoc, first]
  exact h' rest

theorem reads_pure (a : α) : Reads (pure a) [] a := fun _ => rfl

/-- What is read last decides what all of it stands for. -/
theorem Reads.map (h : Reads read bytes a) (f : α → β) :
    Reads (read >>= fun a => pure (f a)) bytes (f a) := by
  have both : Reads (read >>= fun a => pure (f a)) (bytes ++ []) (f a) := h.bind (reads_pure (f a))
  rwa [List.append_nil] at both

end

/-! ### Numbers

A number has a marker, which is the number itself or says how many bytes follow.  Small numbers
take one byte, and a reader refuses a marker of more bytes than its kind of number has.
-/

theorem length_littleEndian (width n : Nat) : (littleEndian width n).length = width := by
  induction width generalizing n with
  | zero => rfl
  | succ width ih => rw [littleEndian, List.length_cons, ih]

/-- The low bytes of a number are what is left of it without the others. -/
theorem ofLittleEndian_littleEndian (width n : Nat) :
    ofLittleEndian (littleEndian width n) = n % 256 ^ width := by
  induction width generalizing n with
  | zero => exact (Nat.mod_one n).symm
  | succ width ih =>
      have hstep : ofLittleEndian (littleEndian (width + 1) n)
          = (UInt8.ofNat (n % 256)).toNat
            + 256 * ofLittleEndian (littleEndian width (n / 256)) := rfl
      have hlow : (UInt8.ofNat (n % 256)).toNat = n % 256 := by
        rw [UInt8.toNat_ofNat']
        omega
      have hpow : 256 ^ (width + 1) = 256 * 256 ^ width := by rw [Nat.pow_succ, Nat.mul_comm]
      rw [hstep, ih (n / 256), hlow, hpow, Nat.mod_mul]

theorem reads_block (bytes : Bytes) : Reads (Reader.block bytes.length) bytes bytes := by
  intro rest
  rw [Reader.block_eq, if_pos (by simp), List.take_left, List.drop_left]

theorem reads_items (bytes : Bytes) : Reads (Reader.items bytes.length) bytes bytes := by
  intro rest
  rw [Reader.items_eq, if_pos (by simp), List.take_left, List.drop_left]

theorem reads_wide (width n : Nat) :
    Reads (readWide width) (littleEndian width n) (n % 256 ^ width) := by
  have block : Reads (Reader.block width) (littleEndian width n) (littleEndian width n) := by
    have := reads_block (littleEndian width n)
    rwa [length_littleEndian] at this
  have read := block.map ofLittleEndian
  rwa [ofLittleEndian_littleEndian width n] at read

/-- The marker of a number says how wide it is. -/
theorem readNat_cons (kind : IntKind) (marker : UInt8) (rest : Bytes) :
    ∃ hasRoom, readNat kind (marker :: rest) =
      (if marker < 251 then pure marker.toNat
      else if marker = 251 then readWide 2
      else if marker = 252 then readWide 4
      else if marker = 253 then
        if kind.isLong then readWide 8
        else Reader.refuse (.wideInteger (kind.expectation hasRoom) "U64")
      else if marker = 254 then
        Reader.refuse (.wideInteger (kind.expectation hasRoom) kind.widest)
      else Reader.refuse (.wideInteger (kind.expectation hasRoom) "Reserved")) rest :=
  ⟨_, rfl⟩

/-- How far the numbers of a kind go. -/
def IntKind.bound : IntKind → Nat
  | .word => 2 ^ 32
  | _ => 2 ^ 64

/-- By the widths, from the smallest that has room for the number. -/
theorem reads_nat (kind : IntKind) {n : Nat} (h : n < kind.bound) :
    Reads (readNat kind) (writeNat n) n := by
  intro rest
  unfold writeNat
  by_cases h1 : n < 251
  · rw [if_pos h1]
    obtain ⟨hasRoom, hread⟩ := readNat_cons kind (UInt8.ofNat n) rest
    have hn : (UInt8.ofNat n).toNat = n := by
      rw [UInt8.toNat_ofNat']
      omega
    have hlt : UInt8.ofNat n < 251 := by
      rw [UInt8.lt_iff_toNat_lt, hn]
      exact h1
    rw [List.singleton_append, hread, if_pos hlt, hn]
    rfl
  rw [if_neg h1]
  by_cases h2 : n < 65536
  · rw [if_pos h2]
    obtain ⟨hasRoom, hread⟩ := readNat_cons kind 251 (littleEndian 2 n ++ rest)
    have read := reads_wide 2 n rest
    have small : n % 256 ^ 2 = n := Nat.mod_eq_of_lt h2
    rw [small] at read
    rw [List.cons_append, hread]
    exact read
  rw [if_neg h2]
  by_cases h4 : n < 4294967296
  · rw [if_pos h4]
    obtain ⟨hasRoom, hread⟩ := readNat_cons kind 252 (littleEndian 4 n ++ rest)
    have read := reads_wide 4 n rest
    have small : n % 256 ^ 4 = n := Nat.mod_eq_of_lt h4
    rw [small] at read
    rw [List.cons_append, hread]
    exact read
  rw [if_neg h4]
  obtain ⟨hasRoom, hread⟩ := readNat_cons kind 253 (littleEndian 8 n ++ rest)
  rw [List.cons_append, hread]
  -- Only a kind that may take eight bytes has numbers that large.
  cases kind with
  | word => exact absurd h h4
  | _ =>
      have small : n < 256 ^ 8 := h
      have read := reads_wide 8 n rest
      rw [Nat.mod_eq_of_lt small] at read
      exact read

theorem reads_word (w : UInt32) : Reads readWord (writeWord w) w := by
  have read := (reads_nat .word w.toNat_lt).map UInt32.ofNat
  rwa [UInt32.ofNat_toNat] at read

theorem reads_long (w : UInt64) : Reads readLong (writeLong w) w := by
  have read := (reads_nat .long w.toNat_lt).map UInt64.ofNat
  rwa [UInt64.ofNat_toNat] at read

theorem zigzag_lt (t : Int64) : zigzag t < 2 ^ 64 := by
  have hlow := t.le_toInt
  have hhigh := t.toInt_lt
  unfold zigzag
  split <;> omega

/-- The sign is the lowest bit, and the rest is the number or what follows its negative. -/
theorem unzigzag_zigzag (t : Int64) : unzigzag (zigzag t) = t := by
  have hlow := t.le_toInt
  unfold unzigzag zigzag
  by_cases h : 0 ≤ t.toInt
  · have heven : (2 * t.toInt).toNat % 2 = 0 := by omega
    have hhalf : (((2 * t.toInt).toNat / 2 : Nat) : Int) = t.toInt := by omega
    rw [if_pos h, if_pos heven, hhalf, Int64.ofInt_toInt]
  · have hodd : (-2 * t.toInt - 1).toNat % 2 ≠ 0 := by omega
    have hhalf : -(((-2 * t.toInt - 1).toNat / 2 : Nat) : Int) - 1 = t.toInt := by omega
    rw [if_neg h, if_neg hodd, hhalf, Int64.ofInt_toInt]

theorem reads_time (t : UnixTime) : Reads readTime (writeTime t) t := by
  have read := (reads_nat .signedLong (zigzag_lt t)).map unzigzag
  rwa [unzigzag_zigzag] at read

/-! ### Single bytes

A truth value and the presence of an option are one byte each, either 0 or 1.
-/

theorem reads_bool (b : Bool) : Reads readBool (writeBool b) b := by
  intro rest
  cases b <;> rfl

theorem reads_option {α : Type} {read : Reader α} {write : α → Bytes} {o : Option α}
    (h : ∀ a ∈ o, Reads read (write a) a) : Reads (readOption read) (writeOption write o) o := by
  intro rest
  cases o with
  | none => rfl
  | some a =>
      have value := (h a rfl).map some rest
      exact value

/-! ### Sequences

A sequence has its length in front of it.  The length is the only thing that can go wrong in
writing: one that does not fit would be cut.
-/

/-- Whether a length can be told. -/
def Fits (count : Nat) : Prop := count < 2 ^ 64

instance : DecidablePred Fits := fun count => inferInstanceAs (Decidable (count < 2 ^ 64))

theorem reads_bytes {bytes : Bytes} (h : Fits bytes.length) :
    Reads readBytes (writeBytes bytes) bytes :=
  (reads_nat .count h).bind (reads_items bytes)

/-- Whether a text is short enough for its length to be told. -/
def TextFits (s : String) : Prop := Fits s.utf8ByteSize

instance : DecidablePred TextFits := fun s => inferInstanceAs (Decidable (Fits s.utf8ByteSize))

/-- A text is what its bytes stand for. -/
theorem ofUtf8?_textBytes (s : String) : Text.ofUtf8? (textBytes s) = some s := by
  have hbytes : (⟨(textBytes s).toArray⟩ : ByteArray) = s.toByteArray := rfl
  rw [Text.ofUtf8?, hbytes, String.fromUTF8?, dif_pos s.isValidUTF8]
  rfl

/-- The bytes are taken as a block of their number, and then seen to be a text. -/
theorem reads_text {s : String} (h : TextFits s) : Reads readText (writeText s) s := by
  refine (reads_nat .long h).bind ?_
  intro rest
  have block : Reader.block s.utf8ByteSize (textBytes s ++ rest) = .ok (textBytes s, rest) :=
    reads_block (textBytes s) rest
  show Reader.andThen (Reader.block s.utf8ByteSize) _ (textBytes s ++ rest) = _
  rw [Reader.andThen, block]
  dsimp only
  rw [ofUtf8?_textBytes]
  rfl

/-- By induction on the items, each of which is read from where the one before it ended. -/
theorem reads_times {α : Type} {read : Reader α} {write : α → Bytes} {as : List α}
    (h : ∀ a ∈ as, Reads read (write a) a) :
    Reads (Reader.times read as.length) (as.flatMap write) as := by
  induction as with
  | nil => exact reads_pure []
  | cons a as ih =>
      obtain ⟨first, others⟩ := List.forall_mem_cons.1 h
      rw [List.length_cons, Reader.times_succ, List.flatMap_cons]
      exact first.bind ((ih others).map (a :: ·))

theorem reads_list {α : Type} {read : Reader α} {write : α → Bytes} {as : List α}
    (size : Fits as.length) (h : ∀ a ∈ as, Reads read (write a) a) :
    Reads (readList read) (writeList write as) as :=
  (reads_nat .count size).bind (reads_times h)

end Frame

open MountSync.Frame

/-! ### What fits -/

def StoreHeader.Fits (h : StoreHeader) : Prop := TextFits h.name ∧ TextFits h.client

def Request.Fits : Request → Prop
  | .requestLock name client => TextFits name ∧ TextFits client
  | .store header => header.Fits
  | .fetch name _ => TextFits name
  | .delete name client => TextFits name ∧ TextFits client
  | .list => True
  | .stat name => TextFits name
  | .checksum name client _ => TextFits name ∧ TextFits client
  | .compareMtime name _ => TextFits name
  | .changeNotification _ => True

def Reply.Fits : Reply → Prop
  | .empty => True
  | .stored name => TextFits name
  | .fetched _ => True
  | .list entries => Frame.Fits entries.length ∧ ∀ e ∈ entries, TextFits e.name
  | .stat record => TextFits record.name
  | .checksum _ => True
  | .sameTimestamp _ => True
  | .manifest records => Frame.Fits records.length ∧ ∀ r ∈ records, TextFits r.name

/-- Whether all lengths in a frame can be told. -/
def ClientFrame.Fits : ClientFrame → Prop
  | .call _ request => request.Fits
  | .chunk content => Frame.Fits content.length
  | .endOfStream => True

/-- Whether all lengths in a frame can be told. -/
def ServerFrame.Fits : ServerFrame → Prop
  | .fetch chunk => Frame.Fits chunk.content.length
  | .reply r => r.Fits
  | .refusal status => TextFits status.message

namespace Frame

/-! ### Structures, field by field

A structure is its fields in the order of their declaration, with nothing between them.
-/

theorem reads_version (v : FileVersion) : Reads readVersion (writeVersion v) v :=
  (reads_word v.checksum).bind ((reads_time v.mtime).map _)

theorem reads_record {r : FileRecord} (h : TextFits r.name) :
    Reads readRecord (writeRecord r) r :=
  (reads_text h).bind ((reads_long r.size).bind ((reads_word r.checksum).bind
    ((reads_time r.mtime).bind ((reads_time r.ctime).map _))))

theorem reads_entry {e : ListEntry} (h : TextFits e.name) : Reads readEntry (writeEntry e) e :=
  (reads_text h).bind ((reads_time e.mtime).map _)

theorem reads_header {h : StoreHeader} (fits : h.Fits) : Reads readHeader (writeHeader h) h :=
  (reads_text fits.1).bind ((reads_long h.size).bind ((reads_text fits.2).bind
    ((reads_word h.checksum).bind ((reads_time h.mtime).map _))))

theorem reads_chunk {c : FetchChunk} (h : Fits c.content.length) :
    Reads readChunk (writeChunk c) c :=
  (reads_long c.fileSize).bind ((reads_bool c.copyNeeded).bind ((reads_bytes h).map _))

/-! ### Variants

A variant is its number and then its fields, so a reader first learns which fields are to come.
-/

/-- The number of a variant. -/
theorem reads_index {n : Nat} (h : n < 2 ^ 32) : Reads (readNat .word) (writeNat n) n :=
  reads_nat .word h

theorem reads_code (code : StatusCode) : Reads readCode (writeNat code.number) code := by
  have index : Reads (readNat .word) (writeNat code.number) code.number :=
    reads_index (by cases code <;> decide)
  have both : Reads readCode (writeNat code.number ++ []) code :=
    index.bind (by cases code <;> exact reads_pure _)
  rwa [List.append_nil] at both

theorem reads_status {s : Status} (h : TextFits s.message) :
    Reads readStatus (writeStatus s) s :=
  (reads_code s.code).bind ((reads_text h).map _)

theorem reads_request {r : Request} (h : r.Fits) : Reads readRequest (writeRequest r) r := by
  cases r with
  | requestLock name client =>
      exact (reads_index (by decide)).bind ((reads_text h.1).bind ((reads_text h.2).map _))
  | store header => exact (reads_index (by decide)).bind ((reads_header h).map _)
  | fetch name mine =>
      exact (reads_index (by decide)).bind ((reads_text h).bind
        ((reads_option fun v _ => reads_version v).map _))
  | delete name client =>
      exact (reads_index (by decide)).bind ((reads_text h.1).bind ((reads_text h.2).map _))
  | list => exact fun rest => rfl
  | stat name => exact (reads_index (by decide)).bind ((reads_text h).map _)
  | checksum name client sum =>
      exact (reads_index (by decide)).bind ((reads_text h.1).bind ((reads_text h.2).bind
        ((reads_word sum).map _)))
  | compareMtime name mtime =>
      exact (reads_index (by decide)).bind ((reads_text h).bind ((reads_time mtime).map _))
  | changeNotification maxWait =>
      exact (reads_index (by decide)).bind ((reads_long maxWait).map _)

theorem reads_reply {r : Reply} (h : r.Fits) : Reads readReply (writeReply r) r := by
  cases r with
  | empty => exact fun rest => rfl
  | stored name => exact (reads_index (by decide)).bind ((reads_text h).map _)
  | fetched bytes => exact (reads_index (by decide)).bind ((reads_long bytes).map _)
  | list entries =>
      exact (reads_index (by decide)).bind
        ((reads_list h.1 fun e he => reads_entry (h.2 e he)).map _)
  | stat record => exact (reads_index (by decide)).bind ((reads_record h).map _)
  | checksum sum => exact (reads_index (by decide)).bind ((reads_word sum).map _)
  | sameTimestamp same => exact (reads_index (by decide)).bind ((reads_bool same).map _)
  | manifest records =>
      exact (reads_index (by decide)).bind
        ((reads_list h.1 fun r hr => reads_record (h.2 r hr)).map _)

/-! ### Frames

A frame is all that a message holds, so reading a message is reading a frame at its beginning.
-/

theorem reads_clientFrame {f : ClientFrame} (h : f.Fits) : Reads readClientFrame f.encode f := by
  cases f with
  | call deadline request =>
      exact (reads_index (by decide)).bind ((reads_long deadline).bind ((reads_request h).map _))
  | chunk content => exact (reads_index (by decide)).bind ((reads_bytes h).map _)
  | endOfStream => exact fun rest => rfl

theorem reads_serverFrame {f : ServerFrame} (h : f.Fits) : Reads readServerFrame f.encode f := by
  cases f with
  | fetch chunk => exact (reads_index (by decide)).bind ((reads_chunk h).map _)
  | reply reply =>
      exact (reads_index (by decide)).bind
        ((reads_index (n := 0) (by decide)).bind ((reads_reply h).map _))
  | refusal status =>
      exact (reads_index (by decide)).bind
        ((reads_index (n := 1) (by decide)).bind ((reads_status h).map _))

/-- Bytes that are read as one value do not begin with those of another. -/
theorem eq_of_begins {α : Type} {read : Reader α} {bytes more : Bytes} {a b : α}
    (ha : Reads read bytes a) (hb : Reads read more b) (h : bytes <+: more) : a = b := by
  obtain ⟨tail, rfl⟩ := h
  have first := ha (tail ++ [])
  rw [← List.append_assoc, hb []] at first
  exact (Prod.mk.inj (Except.ok.inj first)).1.symm

end Frame

theorem ClientFrame.decode_encode {f : ClientFrame} (h : f.Fits) (t : Bytes) :
    decode (f.encode ++ t) = .ok f := by
  rw [decode, reads_clientFrame h t]
  rfl

theorem ServerFrame.decode_encode {f : ServerFrame} (h : f.Fits) (t : Bytes) :
    decode (f.encode ++ t) = .ok f := by
  rw [decode, reads_serverFrame h t]
  rfl

/-! ### Frames that may not fit

A server cannot know that its reply fits.  What is read back of a refusal that does not is no reply
of another kind, and of a manifest only the first records are read.
-/

theorem Frame.Reads.bind_apply {α β : Type} {read : Reader α} {bytes : Bytes} {a : α}
    (h : Reads read bytes a) (next : α → Reader β) (rest : Bytes) :
    (read >>= next) (bytes ++ rest) = next a rest := by
  show Reader.andThen read next (bytes ++ rest) = next a rest
  rw [Reader.andThen, h rest]

/-- A refusal is read back as a refusal, if it is read back at all. -/
theorem ServerFrame.decode_refusal (s : Status) :
    (∃ fault, decode (ServerFrame.refusal s).encode = .error fault) ∨
      ∃ s', decode (ServerFrame.refusal s).encode = .ok (.refusal s') := by
  have index : Reads (readNat .word) (writeNat 1) 1 := reads_index (by decide)
  have read : readServerFrame (ServerFrame.refusal s).encode
      = (readStatus >>= fun status => pure (.refusal status)) (writeStatus s) :=
    (index.bind_apply _ _).trans (index.bind_apply _ _)
  have status : (readStatus >>= fun status => pure (ServerFrame.refusal status)) (writeStatus s)
      = readStatus.andThen (fun status => Reader.yield (.refusal status)) (writeStatus s) := rfl
  rw [decode, read, status, Reader.andThen]
  cases readStatus (writeStatus s) with
  | error fault => exact Or.inl ⟨fault, rfl⟩
  | ok r => exact Or.inr ⟨r.1, rfl⟩

/--
**Every frame is read back as it was, whatever follows it.**

So different frames are different bytes, and no frame begins with all the bytes of another one.
-/
theorem decode_encode_of_fits :
    ((∀ f : ClientFrame, f.Fits → ∀ t, ClientFrame.decode (f.encode ++ t) = .ok f) ∧
      Set.InjOn ClientFrame.encode {f | f.Fits} ∧
      ∀ f g : ClientFrame, f.Fits → g.Fits → f ≠ g → ¬ f.encode <+: g.encode) ∧
    ((∀ f : ServerFrame, f.Fits → ∀ t, ServerFrame.decode (f.encode ++ t) = .ok f) ∧
      Set.InjOn ServerFrame.encode {f | f.Fits} ∧
      ∀ f g : ServerFrame, f.Fits → g.Fits → f ≠ g → ¬ f.encode <+: g.encode) := by
  refine ⟨⟨fun f h t => ClientFrame.decode_encode h t, ?_, ?_⟩,
    ⟨fun f h t => ServerFrame.decode_encode h t, ?_, ?_⟩⟩
  · intro f hf g hg same
    exact eq_of_begins (reads_clientFrame hf) (reads_clientFrame hg) (same ▸ List.prefix_refl _)
  · intro f g hf hg hne hbegins
    exact hne (eq_of_begins (reads_clientFrame hf) (reads_clientFrame hg) hbegins)
  · intro f hf g hg same
    exact eq_of_begins (reads_serverFrame hf) (reads_serverFrame hg) (same ▸ List.prefix_refl _)
  · intro f g hf hg hne hbegins
    exact hne (eq_of_begins (reads_serverFrame hf) (reads_serverFrame hg) hbegins)

/-- A call whose numbers are the first or the last of their widths. -/
def edgeCall : ClientFrame :=
  .call 251 (.store ⟨"ä", 18446744073709551615, "bob", 65536, -126⟩)

/-- The same call with a time one second later, which is two bytes shorter. -/
def laterCall : ClientFrame :=
  .call 251 (.store ⟨"ä", 18446744073709551615, "bob", 65536, -125⟩)

def edgeReply : ServerFrame :=
  .reply (.manifest [⟨"a", 4294967296, 250, -9223372036854775808, 0⟩, ⟨"", 65535, 251, 125, 126⟩])

theorem edgeCall_decodes :
    edgeCall.Fits ∧ laterCall.Fits ∧ edgeReply.Fits ∧ edgeCall ≠ laterCall ∧
      (∀ t, ClientFrame.decode (edgeCall.encode ++ t) = .ok edgeCall) ∧
      (∀ t, ServerFrame.decode (edgeReply.encode ++ t) = .ok edgeReply) ∧
      edgeCall.encode ≠ laterCall.encode ∧ ¬ laterCall.encode <+: edgeCall.encode := by
  have call : edgeCall.Fits := ⟨by decide, by decide⟩
  have later : laterCall.Fits := ⟨by decide, by decide⟩
  have reply : edgeReply.Fits := by
    refine ⟨by decide, ?_⟩
    intro r hr
    revert r
    decide
  have different : edgeCall ≠ laterCall := by decide
  obtain ⟨⟨decode, injective, prefixFree⟩, ⟨decode', -, -⟩⟩ := decode_encode_of_fits
  exact ⟨call, later, reply, different, decode _ call, decode' _ reply,
    fun same => different (injective call later same),
    prefixFree _ _ later call (Ne.symm different)⟩

end MountSync
