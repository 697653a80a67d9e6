/-
What a reader takes, and what it says of less.

A reader goes through its input from the front and stops as soon as it has its value.  So what it
accepts begins with a *whole* form of that value: the same bytes are taken for it whatever follows
them, and of less of them the reader says how much is missing of the item at which they end, which
is never more than what was cut off.  Of two readers, one after the other, the second begins where
the form of the first value ends, so both together take whole forms if each of them does.

A number has several forms, as its marker may announce more bytes than it needs.  What is written
has the shortest form of every number in it.  So it is no longer than what was read, and the same
value is read from it.
-/
import MountSync.Proofs.Frame.RoundTrip

namespace MountSync

namespace Frame

/-- The answer of a reader that lacks bytes of the item that it is at, but not more than `cut`. -/
def Lacks {α : Type} (cut : Nat) (answer : Except DecodeFault α) : Prop :=
  ∃ missing, answer = .error (.unexpectedEnd missing) ∧ 1 ≤ missing ∧ missing ≤ cut

/-- These bytes are a form of `a`, and no less of them is a form of anything. -/
structure Whole {α : Type} (read : Reader α) (bytes : Bytes) (a : α) : Prop where
  reads : Reads read bytes a
  lacks : ∀ {front back}, bytes = front ++ back → back ≠ [] → Lacks back.length (read front)

/-- The reader accepts nothing but whole forms of values, and `post` holds of each value and the
number of its bytes. -/
def Takes {α : Type} (read : Reader α) (post : α → Nat → Prop) : Prop :=
  ∀ input a rest, read input = .ok (a, rest) →
    ∃ bytes, input = bytes ++ rest ∧ Whole read bytes a ∧ post a bytes.length

/-- What was read from `count` bytes can be written, in no more bytes. -/
structure Shortens {α : Type} (fits : α → Prop) (write : α → Bytes) (a : α) (count : Nat) :
    Prop where
  fits : fits a
  short : (write a).length ≤ count

section

variable {α β : Type} {read : Reader α} {next : α → Reader β} {bytes more : Bytes} {a : α} {b : β}
variable {post : α → Nat → Prop} {post' : β → Nat → Prop}

/-! ### One reader after another

What holds of a reader on the bytes that it gets has to be carried over to what it takes of them, so
each of the properties is shown to pass through `bind` once.
-/

theorem Lacks.mono {cut cut' : Nat} {answer : Except DecodeFault α} (h : Lacks cut answer)
    (le : cut ≤ cut') : Lacks cut' answer := by
  obtain ⟨missing, fault, some, few⟩ := h
  exact ⟨missing, fault, some, Nat.le_trans few le⟩

theorem Lacks.bind {cut : Nat} (h : Lacks cut (read bytes)) :
    Lacks cut ((read >>= next) bytes) := by
  obtain ⟨missing, fault, bounds⟩ := h
  refine ⟨missing, ?_, bounds⟩
  show Reader.andThen read next bytes = _
  rw [Reader.andThen, fault]

/-- What is cut off a form of two values is cut off the first one, or off the second one. -/
theorem Whole.bind (h : Whole read bytes a) (h' : Whole (next a) more b) :
    Whole (read >>= next) (bytes ++ more) b where
  reads := h.reads.bind h'.reads
  lacks := by
    intro front back parts some
    rcases List.append_eq_append_iff.1 parts with ⟨part, rfl, rfl⟩ | ⟨part, rfl, rfl⟩
    · rw [h.reads.bind_apply]
      exact h'.lacks rfl some
    · by_cases all : part = []
      · subst all
        rw [List.append_nil] at h
        have first := h.reads.bind_apply next []
        rw [List.append_nil] at first
        rw [first]
        exact h'.lacks rfl some
      · refine (h.lacks rfl all).bind.mono ?_
        rw [List.length_append]
        exact Nat.le_add_right ..

theorem Takes.bind (h : Takes read post)
    (h' : ∀ a n, post a n → Takes (next a) fun b m => post' b (n + m)) :
    Takes (read >>= next) post' := by
  intro input b rest accepted
  have both : Reader.andThen read next input = .ok (b, rest) := accepted
  rw [Reader.andThen] at both
  cases first : read input with
  | error fault =>
      rw [first] at both
      cases both
  | ok r =>
      obtain ⟨a, left⟩ := r
      rw [first] at both
      obtain ⟨bytes, rfl, whole, holds⟩ := h _ _ _ first
      obtain ⟨more, rfl, whole', holds'⟩ := h' a bytes.length holds _ _ _ both
      refine ⟨bytes ++ more, (List.append_assoc ..).symm, whole.bind whole', ?_⟩
      rw [List.length_append]
      exact holds'

theorem takes_pure (h : post a 0) : Takes (pure a) post := by
  rintro input _ _ ⟨⟩
  refine ⟨[], rfl, ⟨reads_pure a, ?_⟩, h⟩
  intro front back parts some
  exact absurd (List.append_eq_nil_iff.1 parts.symm).2 some

theorem takes_refuse (fault : DecodeFault) : Takes (Reader.refuse fault) post := nofun

theorem Takes.mono {post' : α → Nat → Prop} (h : Takes read post)
    (h' : ∀ a n, post a n → post' a n) : Takes read post' := by
  intro input a rest accepted
  obtain ⟨bytes, is, whole, holds⟩ := h _ _ _ accepted
  exact ⟨bytes, is, whole, h' _ _ holds⟩

/-- What is read last decides what all of it stands for. -/
theorem Takes.map (h : Takes read post) (f : α → β) (h' : ∀ a n, post a n → post' (f a) n) :
    Takes (read >>= fun a => pure (f a)) post' :=
  h.bind fun a n holds => takes_pure (h' a n holds)

/-- What is read back is whole. -/
theorem Takes.whole (h : Takes read post) (reads : Reads read bytes a) : Whole read bytes a := by
  have accepted := reads []
  obtain ⟨form, is, whole, -⟩ := h _ _ _ accepted
  rw [List.append_nil, List.append_nil] at is
  rwa [is]

theorem length_append_le {w w' : Bytes} {m n : Nat} (h : w.length ≤ m) (h' : w'.length ≤ n) :
    (w ++ w').length ≤ m + n := by
  rw [List.length_append]
  exact Nat.add_le_add h h'

end

/-! ### Bytes -/

/-- One byte is there or it is not, so at most one is missing. -/
theorem takes_byte : Takes Reader.byte fun _ n => n = 1 := by
  rintro (_ | ⟨b, rest⟩) _ _ ⟨⟩
  refine ⟨[b], rfl, ⟨fun _ => rfl, ?_⟩, rfl⟩
  intro front back parts some
  cases front with
  | nil => exact ⟨1, rfl, Nat.le_refl 1, List.length_pos_iff.2 some⟩
  | cons c front =>
      have none := (List.cons.inj parts).2
      exact absurd (List.append_eq_nil_iff.1 none.symm).2 some

/-- A run of bytes is taken if it is all there. -/
theorem takes_run {run : Reader Bytes} {count : Nat} {missing : Nat → Nat}
    (is : ∀ input, run input = if count ≤ input.length then .ok (input.take count, input.drop count)
      else .error (.unexpectedEnd (missing input.length)))
    (some : ∀ n, n < count → 1 ≤ missing n ∧ missing n ≤ count - n) :
    Takes run fun bytes n => bytes.length = n ∧ n = count := by
  intro input bytes rest accepted
  rw [is] at accepted
  split at accepted
  · rename_i enough
    obtain ⟨rfl, rfl⟩ := Prod.mk.inj (Except.ok.inj accepted)
    have length : (input.take count).length = count := by
      rw [List.length_take, Nat.min_eq_left enough]
    refine ⟨input.take count, (List.take_append_drop count input).symm, ⟨?_, ?_⟩, rfl, length⟩
    · intro rest
      rw [is, if_pos (by rw [List.length_append, length]; exact Nat.le_add_right ..),
        List.take_left' length, List.drop_left' length]
    · intro front back parts nonempty
      have sum : count = front.length + back.length := by
        rw [← length, parts, List.length_append]
      have positive := List.length_pos_iff.2 nonempty
      obtain ⟨atLeast, atMost⟩ := some front.length (by omega)
      refine ⟨missing front.length, ?_, atLeast, by omega⟩
      rw [is, if_neg (by omega)]
  · exact nomatch accepted

theorem takes_block (count : Nat) :
    Takes (Reader.block count) fun bytes n => bytes.length = n ∧ n = count :=
  takes_run (Reader.block_eq count) fun _ short => ⟨Nat.sub_pos_of_lt short, Nat.le_refl _⟩

theorem takes_items (count : Nat) :
    Takes (Reader.items count) fun bytes n => bytes.length = n ∧ n = count :=
  takes_run (Reader.items_eq count) fun _ short => ⟨Nat.le_refl 1, Nat.sub_pos_of_lt short⟩

/-! ### Numbers

The marker is read first, and it decides how many bytes are to follow.
-/

theorem ofLittleEndian_lt (bytes : Bytes) : ofLittleEndian bytes < 256 ^ bytes.length := by
  induction bytes with
  | nil => exact Nat.one_pos
  | cons b rest ih =>
      have low := b.toNat_lt
      have step : ofLittleEndian (b :: rest) = b.toNat + 256 * ofLittleEndian rest := rfl
      rw [step, List.length_cons, Nat.pow_succ]
      omega

theorem takes_wide (width : Nat) :
    Takes (readWide width) fun v n => v < 256 ^ width ∧ n = width := by
  refine (takes_block width).map ofLittleEndian ?_
  rintro bytes n ⟨length, all⟩
  have bound := ofLittleEndian_lt bytes
  rw [length, all] at bound
  exact ⟨bound, all⟩

/-- The shortest form of a number, by its width. -/
theorem length_writeNat (n : Nat) :
    (writeNat n).length = if n < 251 then 1 else if n < 65536 then 3 else if n < 4294967296 then 5
      else 9 := by
  unfold writeNat
  split_ifs <;> simp only [List.length_cons, List.length_nil, length_littleEndian]

/-- A number in more bytes than its marker can be written in no more of them. -/
theorem takes_payload {kind : IntKind} {width : Nat} (bound : 256 ^ width ≤ kind.bound)
    (short : ∀ v < 256 ^ width, (writeNat v).length ≤ 1 + width) :
    Takes (readWide width) fun v n => v < kind.bound ∧ (writeNat v).length ≤ 1 + n := by
  refine (takes_wide width).mono ?_
  rintro v n ⟨lt, rfl⟩
  exact ⟨Nat.lt_of_lt_of_le lt bound, short v lt⟩

/-- Behind its marker a number is as many bytes as the marker says, unless the marker is refused. -/
theorem readNat_marker (kind : IntKind) (marker : UInt8) :
    (∃ payload : Reader Nat, (∀ rest, readNat kind (marker :: rest) = payload rest) ∧
      Takes payload fun v n => v < kind.bound ∧ (writeNat v).length ≤ 1 + n) ∨
    ∀ rest, ∃ fault, readNat kind (marker :: rest) = .error fault := by
  have read := readNat_cons kind marker
  have short : ∀ v, (writeNat v).length ≤ 9 ∧ (v < 65536 → (writeNat v).length ≤ 3) ∧
      (v < 4294967296 → (writeNat v).length ≤ 5) := by
    intro v
    rw [length_writeNat]
    split_ifs <;> omega
  by_cases small : marker < 251
  · have lt : marker.toNat < 251 := UInt8.lt_iff_toNat_lt.1 small
    have bound : 251 ≤ kind.bound := by cases kind <;> decide
    refine .inl ⟨pure marker.toNat, fun rest => ?_, takes_pure ⟨Nat.lt_of_lt_of_le lt bound, ?_⟩⟩
    · obtain ⟨hasRoom, is⟩ := read rest
      rw [is, if_pos small]
    · rw [length_writeNat, if_pos lt]
  by_cases two : marker = 251
  · subst two
    exact .inl ⟨readWide 2, fun rest => (read rest).choose_spec,
      takes_payload (by cases kind <;> decide) fun v => (short v).2.1⟩
  by_cases four : marker = 252
  · subst four
    exact .inl ⟨readWide 4, fun rest => (read rest).choose_spec,
      takes_payload (by cases kind <;> decide) fun v => (short v).2.2⟩
  by_cases eight : marker = 253
  · subst eight
    -- Only a kind that may take eight bytes accepts this marker.
    cases kind with
    | word => exact .inr fun rest => ⟨_, (read rest).choose_spec⟩
    | _ =>
        exact .inl ⟨readWide 8, fun rest => (read rest).choose_spec,
          takes_payload (by decide) fun v _ => (short v).1⟩
  right
  intro rest
  obtain ⟨hasRoom, is⟩ := read rest
  rw [if_neg small, if_neg two, if_neg four, if_neg eight] at is
  by_cases sixteen : marker = 254
  · rw [if_pos sixteen] at is
    exact ⟨_, is⟩
  · rw [if_neg sixteen] at is
    exact ⟨_, is⟩

theorem takes_nat (kind : IntKind) :
    Takes (readNat kind) (Shortens (· < kind.bound) writeNat) := by
  rintro (_ | ⟨marker, input⟩) n rest accepted
  · exact nomatch accepted
  rcases readNat_marker kind marker with ⟨payload, is, takes⟩ | refused
  · rw [is] at accepted
    obtain ⟨bytes, rfl, whole, lt, short⟩ := takes _ _ _ accepted
    refine ⟨marker :: bytes, rfl, ⟨fun rest => ?_, ?_⟩, ⟨lt, ?_⟩⟩
    · rw [List.cons_append, is]
      exact whole.reads rest
    · intro front back parts some
      cases front with
      | nil => exact ⟨1, rfl, Nat.le_refl 1, List.length_pos_iff.2 some⟩
      | cons first front =>
          obtain ⟨rfl, later⟩ := List.cons_eq_cons.1 parts
          rw [is]
          exact whole.lacks later some
    · rwa [List.length_cons, Nat.add_comm]
  · obtain ⟨fault, is⟩ := refused input
    exact nomatch is.symm.trans accepted

theorem takes_word : Takes readWord (Shortens (fun _ => True) writeWord) := by
  refine (takes_nat .word).map UInt32.ofNat ?_
  rintro n _ ⟨lt, short⟩
  refine ⟨trivial, ?_⟩
  rwa [writeWord, UInt32.toNat_ofNat_of_lt' lt]

theorem takes_long : Takes readLong (Shortens (fun _ => True) writeLong) := by
  refine (takes_nat .long).map UInt64.ofNat ?_
  rintro n _ ⟨lt, short⟩
  refine ⟨trivial, ?_⟩
  rwa [writeLong, UInt64.toNat_ofNat_of_lt' lt]

theorem zigzag_unzigzag {n : Nat} (h : n < 2 ^ 64) : zigzag (unzigzag n) = n := by
  unfold unzigzag zigzag
  split
  · rw [Int64.toInt_ofInt_of_le (by omega) (by omega)]
    rw [if_pos (by omega)]
    omega
  · rw [Int64.toInt_ofInt_of_le (by omega) (by omega)]
    rw [if_neg (by omega)]
    omega

theorem takes_time : Takes readTime (Shortens (fun _ => True) writeTime) := by
  refine (takes_nat .signedLong).map unzigzag ?_
  rintro n _ ⟨lt, short⟩
  refine ⟨trivial, ?_⟩
  rwa [writeTime, zigzag_unzigzag lt]

/-! ### Single bytes -/

theorem takes_bool : Takes readBool (Shortens (fun _ => True) writeBool) := by
  refine takes_byte.bind ?_
  rintro b n rfl
  split
  · exact takes_pure ⟨trivial, Nat.le_refl 1⟩
  split
  · exact takes_pure ⟨trivial, Nat.le_refl 1⟩
  · exact takes_refuse _

theorem takes_option {α : Type} {read : Reader α} {fits : α → Prop} {write : α → Bytes}
    (h : Takes read (Shortens fits write)) :
    Takes (readOption read) (Shortens (fun o => ∀ a ∈ o, fits a) (writeOption write)) := by
  refine takes_byte.bind ?_
  rintro b n rfl
  split
  · exact takes_pure ⟨nofun, Nat.le_refl 1⟩
  split
  · refine h.map some ?_
    intro a n value
    refine ⟨?_, ?_⟩
    · rintro _ ⟨⟩
      exact value.fits
    · rw [writeOption, List.length_cons, Nat.add_comm]
      exact Nat.add_le_add_left value.short 1
  · exact takes_refuse _

/-! ### Sequences

The count is read before the items, so a reader that is cut off among them is known to want more.
-/

theorem takes_bytes : Takes readBytes (Shortens (fun bytes => Fits bytes.length) writeBytes) := by
  refine (takes_nat .count).bind ?_
  intro count n number
  refine (takes_items count).mono ?_
  rintro bytes m ⟨length, rfl⟩
  refine ⟨length ▸ number.fits, ?_⟩
  rw [writeBytes, length]
  exact length_append_le number.short (Nat.le_of_eq length)

/-- Bytes are the bytes of the text that they stand for. -/
theorem textBytes_of_ofUtf8? {bytes : Bytes} {s : String} (h : Text.ofUtf8? bytes = some s) :
    textBytes s = bytes := by
  unfold Text.ofUtf8? String.fromUTF8? at h
  split at h
  · cases h
    rfl
  · exact nomatch h

theorem takes_text : Takes readText (Shortens TextFits writeText) := by
  refine (takes_nat .long).bind ?_
  intro count n number
  refine (takes_block count).bind ?_
  rintro bytes m ⟨length, rfl⟩
  split
  · rename_i s decoded
    have same := textBytes_of_ofUtf8? decoded
    have size : s.utf8ByteSize = bytes.length := congrArg List.length same
    refine takes_pure ⟨?_, ?_⟩
    · show s.utf8ByteSize < 2 ^ 64
      rw [size, length]
      exact number.fits
    · rw [writeText, same, writeBytes, length]
      exact length_append_le number.short (Nat.le_of_eq length)
  · exact takes_refuse _

/-- By induction on the count, with what is left of it behind the first item. -/
theorem takes_times {α : Type} {read : Reader α} {fits : α → Prop} {write : α → Bytes}
    (h : Takes read (Shortens fits write)) (count : Nat) :
    Takes (Reader.times read count) fun as n =>
      as.length = count ∧ (∀ a ∈ as, fits a) ∧ (as.flatMap write).length ≤ n := by
  induction count with
  | zero => exact takes_pure ⟨rfl, nofun, Nat.le_refl 0⟩
  | succ count ih =>
      rw [Reader.times_succ]
      refine h.bind ?_
      intro a n first
      refine ih.map (a :: ·) ?_
      rintro as m ⟨length, fits, short⟩
      refine ⟨?_, ?_, ?_⟩
      · rw [List.length_cons, length]
      · exact List.forall_mem_cons.2 ⟨first.fits, fits⟩
      · rw [List.flatMap_cons]
        exact length_append_le first.short short

/-- A count of any form is taken, and the shortest one is written. -/
theorem takes_list {α : Type} {read : Reader α} {fits : α → Prop} {write : α → Bytes}
    (h : Takes read (Shortens fits write)) :
    Takes (readList read)
      (Shortens (fun as => Fits as.length ∧ ∀ a ∈ as, fits a) (writeList write)) := by
  refine (takes_nat .count).bind ?_
  intro count n number
  refine (takes_times h count).mono ?_
  rintro as m ⟨rfl, fits, short⟩
  exact ⟨⟨number.fits, fits⟩, length_append_le number.short short⟩

/-! ### Structures, field by field

Each field is read behind the one before it.  What is known of it is named as it is read: what makes
it fit, and that it can be written in no more bytes than it took.  The bounds are added up in the
end, when the whole structure has been read.
-/

theorem takes_version : Takes readVersion (Shortens (fun _ => True) writeVersion) := by
  refine takes_word.bind ?_
  intro sum _ summed
  refine takes_time.map _ ?_
  intro mtime _ modified
  refine ⟨trivial, ?_⟩
  rw [writeVersion]
  exact length_append_le summed.short modified.short

theorem takes_record : Takes readRecord (Shortens (fun r => TextFits r.name) writeRecord) := by
  refine takes_text.bind ?_
  intro name _ named
  refine takes_long.bind ?_
  intro size _ sized
  refine takes_word.bind ?_
  intro sum _ summed
  refine takes_time.bind ?_
  intro mtime _ modified
  refine takes_time.map _ ?_
  intro ctime _ created
  refine ⟨named.fits, ?_⟩
  have times := length_append_le modified.short created.short
  have counts := length_append_le sized.short (length_append_le summed.short times)
  rw [writeRecord]
  exact length_append_le named.short counts

theorem takes_entry : Takes readEntry (Shortens (fun e => TextFits e.name) writeEntry) := by
  refine takes_text.bind ?_
  intro name _ named
  refine takes_time.map _ ?_
  intro mtime _ modified
  refine ⟨named.fits, ?_⟩
  rw [writeEntry]
  exact length_append_le named.short modified.short

theorem takes_header : Takes readHeader (Shortens StoreHeader.Fits writeHeader) := by
  refine takes_text.bind ?_
  intro name _ named
  refine takes_long.bind ?_
  intro size _ sized
  refine takes_text.bind ?_
  intro client _ owned
  refine takes_word.bind ?_
  intro sum _ summed
  refine takes_time.map _ ?_
  intro mtime _ modified
  refine ⟨⟨named.fits, owned.fits⟩, ?_⟩
  have version := length_append_le summed.short modified.short
  have behind := length_append_le sized.short (length_append_le owned.short version)
  rw [writeHeader]
  exact length_append_le named.short behind

theorem takes_chunk :
    Takes readChunk (Shortens (fun c => Fits c.content.length) writeChunk) := by
  refine takes_long.bind ?_
  intro size _ sized
  refine takes_bool.bind ?_
  intro needed _ flagged
  refine takes_bytes.map _ ?_
  intro content _ filled
  refine ⟨filled.fits, ?_⟩
  rw [writeChunk]
  exact length_append_le sized.short (length_append_le flagged.short filled.short)

/-! ### Variants

The index of a variant says which fields come behind it.  An index that is written in more bytes than
it needs is the same index, so it is written in the one byte in which the variant begins.
-/

/-- Two names behind an index, as a request for a lock and one for a removal have them. -/
theorem takes_names {post : Request → Nat → Prop} {make : String → String → Request}
    (h : ∀ name client n, TextFits name → TextFits client →
      (writeText name ++ writeText client).length ≤ n → post (make name client) n) :
    Takes (readText >>= fun name => readText >>= fun client => pure (make name client)) post := by
  refine takes_text.bind ?_
  intro name n named
  refine takes_text.map _ ?_
  intro client m owned
  exact h name client (n + m) named.fits owned.fits (length_append_le named.short owned.short)

theorem takes_request : Takes readRequest (Shortens Request.Fits writeRequest) := by
  refine (takes_nat .word).bind ?_
  intro index n number
  have short := number.short
  -- One goal for each number a request can begin with, and the last for all others.
  split
  · refine takes_names ?_
    intro name client m nameFits clientFits names
    exact ⟨⟨nameFits, clientFits⟩, length_append_le short names⟩
  · refine takes_header.map _ ?_
    intro header _ read
    exact ⟨read.fits, length_append_le short read.short⟩
  · refine takes_text.bind ?_
    intro name _ named
    refine (takes_option takes_version).map _ ?_
    intro mine _ version
    exact ⟨named.fits, length_append_le short (length_append_le named.short version.short)⟩
  · refine takes_names ?_
    intro name client m nameFits clientFits names
    exact ⟨⟨nameFits, clientFits⟩, length_append_le short names⟩
  · exact takes_pure ⟨trivial, short⟩
  · refine takes_text.map _ ?_
    intro name _ named
    exact ⟨named.fits, length_append_le short named.short⟩
  · refine takes_text.bind ?_
    intro name _ named
    refine takes_text.bind ?_
    intro client _ owned
    refine takes_word.map _ ?_
    intro sum _ summed
    refine ⟨⟨named.fits, owned.fits⟩, ?_⟩
    have behind := length_append_le named.short (length_append_le owned.short summed.short)
    exact length_append_le short behind
  · refine takes_text.bind ?_
    intro name _ named
    refine takes_time.map _ ?_
    intro mtime _ modified
    exact ⟨named.fits, length_append_le short (length_append_le named.short modified.short)⟩
  · refine takes_long.map _ ?_
    intro maxWait _ wait
    exact ⟨trivial, length_append_le short wait.short⟩
  · exact takes_refuse _

theorem takes_reply : Takes readReply (Shortens Reply.Fits writeReply) := by
  refine (takes_nat .word).bind ?_
  intro index n number
  have short := number.short
  split
  · exact takes_pure ⟨trivial, short⟩
  · refine takes_text.map _ ?_
    intro name _ named
    exact ⟨named.fits, length_append_le short named.short⟩
  · refine takes_long.map _ ?_
    intro bytes _ count
    exact ⟨trivial, length_append_le short count.short⟩
  · refine (takes_list takes_entry).map _ ?_
    intro entries _ listed
    exact ⟨listed.fits, length_append_le short listed.short⟩
  · refine takes_record.map _ ?_
    intro record _ read
    exact ⟨read.fits, length_append_le short read.short⟩
  · refine takes_word.map _ ?_
    intro sum _ summed
    exact ⟨trivial, length_append_le short summed.short⟩
  · refine takes_bool.map _ ?_
    intro same _ flagged
    exact ⟨trivial, length_append_le short flagged.short⟩
  · refine (takes_list takes_record).map _ ?_
    intro records _ listed
    exact ⟨listed.fits, length_append_le short listed.short⟩
  · exact takes_refuse _

theorem takes_code :
    Takes readCode (Shortens (fun _ => True) fun code => writeNat code.number) := by
  refine (takes_nat .word).bind ?_
  intro index n number
  have short := number.short
  split
  case h_8 => exact takes_refuse _
  all_goals exact takes_pure ⟨trivial, short⟩

theorem takes_status : Takes readStatus (Shortens (fun s => TextFits s.message) writeStatus) := by
  refine takes_code.bind ?_
  intro code _ coded
  refine takes_text.map _ ?_
  intro message _ said
  refine ⟨said.fits, ?_⟩
  rw [writeStatus]
  exact length_append_le coded.short said.short

/-! ### Frames

A frame is a variant like any other.  What a server answers in the end has two indices, one for the
kind of frame and one for the side of the result, and either can be too long.
-/

theorem takes_clientFrame :
    Takes readClientFrame (Shortens ClientFrame.Fits ClientFrame.encode) := by
  refine (takes_nat .word).bind ?_
  intro index n number
  have short := number.short
  split
  · refine takes_long.bind ?_
    intro deadline _ due
    refine takes_request.map _ ?_
    intro request _ asked
    exact ⟨asked.fits, length_append_le short (length_append_le due.short asked.short)⟩
  · refine takes_bytes.map _ ?_
    intro content _ filled
    exact ⟨filled.fits, length_append_le short filled.short⟩
  · exact takes_pure ⟨trivial, short⟩
  · exact takes_refuse _

theorem takes_serverFrame :
    Takes readServerFrame (Shortens ServerFrame.Fits ServerFrame.encode) := by
  refine (takes_nat .word).bind ?_
  intro index n number
  have short := number.short
  split
  · refine takes_chunk.map _ ?_
    intro chunk _ read
    exact ⟨read.fits, length_append_le short read.short⟩
  · refine (takes_nat .word).bind ?_
    intro side m number'
    have short' := number'.short
    split
    · refine takes_reply.map _ ?_
      intro reply _ read
      exact ⟨read.fits, length_append_le short (length_append_le short' read.short)⟩
    · refine takes_status.map _ ?_
      intro status _ read
      exact ⟨read.fits, length_append_le short (length_append_le short' read.short)⟩
    · exact takes_refuse _
  · exact takes_refuse _

/-! ### What is decoded

A frame is decoded from all that has arrived, and what it has taken of that is a beginning.
-/

theorem Lacks.map {α β : Type} {cut : Nat} {answer : Except DecodeFault α} (h : Lacks cut answer)
    (f : α → β) : Lacks cut (answer.map f) := by
  obtain ⟨missing, rfl, bounds⟩ := h
  exact ⟨missing, rfl, bounds⟩

/-- The value at the front of these bytes: whatever follows them it is the same, and no less of them
has a value.  It can be written in no more bytes, which have this value again. -/
structure DecodedFrom {α : Type} (decode : Bytes → Except DecodeFault α) (encode : α → Bytes)
    (front : Bytes) (a : α) : Prop where
  further : ∀ rest, decode (front ++ rest) = .ok a
  less : ∀ part cut, front = part ++ cut → cut ≠ [] → ∃ fault, decode part = .error fault
  short : (encode a).length ≤ front.length
  again : decode (encode a) = .ok a

/-- What a reader accepts is decoded from the bytes that it takes. -/
theorem Takes.decodedFrom {α : Type} {read : Reader α} {fits : α → Prop} {write : α → Bytes}
    (takes : Takes read (Shortens fits write)) (reads : ∀ a, fits a → Reads read (write a) a)
    {input : Bytes} {a : α} (h : (read input).map Prod.fst = .ok a) :
    ∃ front rest, input = front ++ rest ∧ read input = .ok (a, rest) ∧
      DecodedFrom (fun bytes => (read bytes).map Prod.fst) write front a := by
  cases accepted : read input with
  | error fault =>
      rw [accepted] at h
      exact nomatch h
  | ok r =>
      obtain ⟨b, rest⟩ := r
      rw [accepted] at h
      cases h
      obtain ⟨front, is, whole, value⟩ := takes _ _ _ accepted
      refine ⟨front, rest, is, rfl, fun rest => ?_, fun part cut parts some => ?_, value.short, ?_⟩
      · dsimp only
        rw [whole.reads rest]
        rfl
      · obtain ⟨missing, fault, -⟩ := (whole.lacks parts some).map Prod.fst
        exact ⟨_, fault⟩
      · have read := reads b value.fits []
        rw [List.append_nil] at read
        dsimp only
        rw [read]
        rfl

end Frame

open MountSync.Frame

/-- **A frame that is cut off is recognised as such.**

Wherever the cut is, in a marker, a number, a length or in the middle of a character, what is left
is no other frame and no fault of another kind, and no more is said to be missing than was cut
off. -/
theorem decode_of_cutOff :
    (∀ f : ClientFrame, f.Fits → ∀ front cut, f.encode = front ++ cut → cut ≠ [] →
      ∃ missing, ClientFrame.decode front = .error (.unexpectedEnd missing) ∧
        1 ≤ missing ∧ missing ≤ cut.length) ∧
    (∀ f : ServerFrame, f.Fits → ∀ front cut, f.encode = front ++ cut → cut ≠ [] →
      ∃ missing, ServerFrame.decode front = .error (.unexpectedEnd missing) ∧
        1 ≤ missing ∧ missing ≤ cut.length) := by
  constructor
  · intro f fits front cut parts some
    exact ((takes_clientFrame.whole (reads_clientFrame fits)).lacks parts some).map Prod.fst
  · intro f fits front cut parts some
    exact ((takes_serverFrame.whole (reads_serverFrame fits)).lacks parts some).map Prod.fst

/-- A call with a number of nine bytes and a character of two. -/
def longCall : ClientFrame := .call 18446744073709551615 (.stat "ä")

def umlautRefusal : ServerFrame := .refusal ⟨.internal, "ä"⟩

/-- The call is cut off in the number, and the refusal in the character. -/
theorem longCall_cutOff :
    longCall.Fits ∧ umlautRefusal.Fits ∧
    longCall.encode = [0, 253, 255, 255] ++ [255, 255, 255, 255, 255, 255, 5, 2, 195, 164] ∧
    (∃ missing, ClientFrame.decode [0, 253, 255, 255] = .error (.unexpectedEnd missing) ∧
      1 ≤ missing ∧ missing ≤ 10) ∧
    umlautRefusal.encode = [1, 1, 6, 2, 195] ++ [164] ∧
    ∃ missing, ServerFrame.decode [1, 1, 6, 2, 195] = .error (.unexpectedEnd missing) ∧
      1 ≤ missing ∧ missing ≤ 1 := by
  have call : longCall.Fits := by
    show TextFits "ä"
    decide
  have refusal : umlautRefusal.Fits := by
    show TextFits "ä"
    decide
  obtain ⟨client, server⟩ := decode_of_cutOff
  have called := client longCall call [0, 253, 255, 255]
    [255, 255, 255, 255, 255, 255, 5, 2, 195, 164] rfl (by decide)
  have refused := server umlautRefusal refusal [1, 1, 6, 2, 195] [164] rfl (by decide)
  exact ⟨call, refusal, rfl, called, rfl, refused⟩

/-- **A frame is decoded from bytes at the front of the input alone, and none of its forms is
shorter than the one that is written.**

This is so for every input from which a frame is decoded, also if numbers in it take more bytes than
they need.  The same frame is decoded from what is written for it. -/
theorem decode_local :
    (∀ input f, ClientFrame.decode input = .ok f → ∃ front rest,
      input = front ++ rest ∧ readClientFrame input = .ok (f, rest) ∧
        DecodedFrom ClientFrame.decode ClientFrame.encode front f) ∧
    (∀ input f, ServerFrame.decode input = .ok f → ∃ front rest,
      input = front ++ rest ∧ readServerFrame input = .ok (f, rest) ∧
        DecodedFrom ServerFrame.decode ServerFrame.encode front f) :=
  ⟨fun _ _ h => takes_clientFrame.decodedFrom (fun _ => reads_clientFrame) h,
    fun _ _ h => takes_serverFrame.decodedFrom (fun _ => reads_serverFrame) h⟩

/-- A piece of two bytes, with its variant in four bytes behind a marker, and its length in two. -/
def wideChunk : Bytes := [252, 1, 0, 0, 0, 251, 2, 0, 9, 8]

/-- A checksum that is replied, with each number in more bytes than it needs. -/
def wideReply : Bytes := [251, 1, 0, 252, 0, 0, 0, 0, 251, 5, 0, 252, 7, 0, 0, 0]

theorem wideChunk_decodes :
    ClientFrame.decode (wideChunk ++ [77]) = .ok (.chunk [9, 8]) ∧
    DecodedFrom ClientFrame.decode ClientFrame.encode wideChunk (.chunk [9, 8]) ∧
    (ClientFrame.chunk [9, 8]).encode = [1, 2, 9, 8] ∧
    ServerFrame.decode (wideReply ++ [77]) = .ok (.reply (.checksum 7)) ∧
    DecodedFrom ServerFrame.decode ServerFrame.encode wideReply (.reply (.checksum 7)) := by
  have chunk : ClientFrame.decode (wideChunk ++ [77]) = .ok (.chunk [9, 8]) := rfl
  have reply : ServerFrame.decode (wideReply ++ [77]) = .ok (.reply (.checksum 7)) := rfl
  obtain ⟨client, server⟩ := decode_local
  obtain ⟨front, rest, parts, read, decoded⟩ := client _ _ chunk
  obtain ⟨front', rest', parts', read', decoded'⟩ := server _ _ reply
  have last : rest = [77] := (Prod.mk.inj (Except.ok.inj read)).2.symm
  have last' : rest' = [77] := (Prod.mk.inj (Except.ok.inj read')).2.symm
  subst last last'
  rw [← List.append_cancel_right parts] at decoded
  rw [← List.append_cancel_right parts'] at decoded'
  exact ⟨chunk, decoded, rfl, reply, decoded'⟩

end MountSync
