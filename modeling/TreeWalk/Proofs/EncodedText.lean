import Mathlib.Data.List.Basic
import TreeWalk.Text.Utf8

/-! # Texts and their bytes

The bytes of a text are those of its characters, one after the other.  Decoding them strictly
gives the text again and takes nothing else: what is decoded is the encoding of the result.  A
file that is read in blocks is decoded to the same text, although a block may end inside the
bytes of a character.

## Key results

* `Utf8.readSequence_eq_char_iff` says which sequences are read as a character.
* `Utf8.decode_eq_ok_iff` says which bytes are decoded, and to what.
* `Utf8.decodeStream_encode` says the same of a file that is read in blocks.
-/

namespace TreeWalk

namespace Utf8

/-- The bytes of a text. -/
def encode (text : List Char) : List UInt8 :=
  text.flatMap String.utf8EncodeChar

@[simp] theorem encode_nil : encode [] = [] := rfl

@[simp] theorem encode_cons (c : Char) (text : List Char) :
    encode (c :: text) = String.utf8EncodeChar c ++ encode text := rfl

/-! ## Bytes as numbers -/

/-- The bytes of the character with the number `n`. -/
def sequenceOf (n : Nat) : List Nat :=
  if n < 0x80 then [n]
  else if n < 0x800 then [0xC0 + n / 64, 0x80 + n % 64]
  else if n < 0x10000 then [0xE0 + n / 4096, 0x80 + n / 64 % 64, 0x80 + n % 64]
  else [0xF0 + n / 262144, 0x80 + n / 4096 % 64, 0x80 + n / 64 % 64, 0x80 + n % 64]

/-- A number that is no surrogate and not too great is that of its character. -/
theorem toNat_ofNat {n : Nat} (h : n < 0xD800 ∨ 0xDFFF < n ∧ n < 0x110000) :
    (Char.ofNat n).toNat = n := by
  rw [Char.ofNat, dif_pos h]
  rfl

/-- The encoding of a character has the numbers of its sequence. -/
theorem map_toNat_utf8EncodeChar (c : Char) :
    (String.utf8EncodeChar c).map UInt8.toNat = sequenceOf c.toNat := by
  have hc : c.toNat < 0x110000 := by
    have hvalid : c.toNat < 0xD800 ∨ 0xDFFF < c.toNat ∧ c.toNat < 0x110000 := c.valid
    omega
  unfold String.utf8EncodeChar sequenceOf
  show List.map UInt8.toNat (if c.toNat ≤ 0x7f then _ else _) = _
  simp only [apply_ite (List.map UInt8.toNat), List.map_cons, List.map_nil, UInt8.toNat_ofNat',
    Char.toNat, Nat.reducePow] at hc ⊢
  generalize c.val.toNat = n at hc
  -- the cases in which only one side takes the number to be small are void
  split_ifs <;> try simp only [List.cons.injEq, and_true]
  all_goals omega

/-- A continuation byte by its number. -/
theorem isContinuation_iff (b : UInt8) :
    isContinuation b = true ↔ 0x80 ≤ b.toNat ∧ b.toNat < 0xC0 := by
  simp [isContinuation, UInt8.le_iff_toNat_le, UInt8.lt_iff_toNat_lt]

/-- Which second bytes a first one allows, by their numbers. -/
theorem allowsSecond_iff (first second : UInt8) :
    allowsSecond first second = true ↔ (0x80 ≤ second.toNat ∧ second.toNat < 0xC0) ∧
      (first.toNat = 0xE0 → 0xA0 ≤ second.toNat) ∧ (first.toNat = 0xED → second.toNat < 0xA0) ∧
      (first.toNat = 0xF0 → 0x90 ≤ second.toNat) ∧ (first.toNat = 0xF4 → second.toNat < 0x90) := by
  unfold allowsSecond
  rw [Bool.and_eq_true, isContinuation_iff]
  simp only [← UInt8.toNat_inj, UInt8.le_iff_toNat_le, UInt8.lt_iff_toNat_lt, UInt8.reduceToNat]
  grind

/-- How many bytes a sequence has shows in the first of them. -/
theorem lead?_eq_some_iff {b : UInt8} {size bits : Nat} :
    lead? b = some (size, bits) ↔
      (b.toNat < 0x80 ∧ size = 1 ∧ bits = b.toNat) ∨
      (0xC2 ≤ b.toNat ∧ b.toNat < 0xE0 ∧ size = 2 ∧ bits = b.toNat - 0xC0) ∨
      (0xE0 ≤ b.toNat ∧ b.toNat < 0xF0 ∧ size = 3 ∧ bits = b.toNat - 0xE0) ∨
      (0xF0 ≤ b.toNat ∧ b.toNat < 0xF5 ∧ size = 4 ∧ bits = b.toNat - 0xF0) := by
  unfold lead?
  simp only [UInt8.lt_iff_toNat_lt, UInt8.reduceToNat]
  grind

/-! ## One sequence -/

/-- A continuation byte adds six bits. -/
theorem readRest_cons {b : UInt8} (h : isContinuation b = true) (taken bits missing : Nat)
    (rest : List UInt8) :
    readRest taken bits (missing + 1) (b :: rest) =
      readRest (taken + 1) (bits * 64 + (b.toNat - 0x80)) missing rest := by
  rw [readRest, if_pos h]

/-- Behind the first two bytes of a sequence the rest of it is read. -/
theorem readSequence_cons {first second : UInt8} {size bits : Nat}
    (hlead : lead? first = some (size + 2, bits)) (hsecond : allowsSecond first second = true)
    (rest : List UInt8) :
    readSequence first (second :: rest) =
      readRest 2 (bits * 64 + (second.toNat - 0x80)) size rest := by
  simp [readSequence, hlead, hsecond]

/-- The bytes of a character are read as that character. -/
theorem readSequence_encode {first : UInt8} {rest : List UInt8} {c : Char} {tail : List UInt8}
    (h : first :: rest = String.utf8EncodeChar c ++ tail) :
    readSequence first rest = .char c (String.utf8EncodeChar c).length := by
  have hnumbers := map_toNat_utf8EncodeChar c
  have hc : c.toNat < 0xD800 ∨ 0xDFFF < c.toNat ∧ c.toNat < 0x110000 := c.valid
  have hback := Char.ofNat_toNat c
  generalize String.utf8EncodeChar c = bytes at h hnumbers ⊢
  generalize c.toNat = n at hc hnumbers hback
  -- The numbers of the bytes tell the number of the character in each of the four sizes.
  unfold sequenceOf at hnumbers
  split at hnumbers
  · simp only [List.map_eq_cons_iff, List.map_eq_nil_iff] at hnumbers
    obtain ⟨a, _, rfl, ha, rfl⟩ := hnumbers
    obtain ⟨rfl, -⟩ := List.cons.inj h
    have hlead : lead? first = some (1, first.toNat) := lead?_eq_some_iff.mpr (by omega)
    simp only [readSequence, hlead, ha, hback, List.length_singleton]
  split at hnumbers
  · simp only [List.map_eq_cons_iff, List.map_eq_nil_iff] at hnumbers
    obtain ⟨a, _, rfl, ha, b, _, rfl, hb, rfl⟩ := hnumbers
    obtain ⟨rfl, rfl⟩ := List.cons.inj h
    have hlead : lead? first = some (2, first.toNat - 0xC0) := lead?_eq_some_iff.mpr (by omega)
    have hsecond : allowsSecond first b = true := (allowsSecond_iff first b).mpr (by omega)
    have hn : (first.toNat - 0xC0) * 64 + (b.toNat - 0x80) = n := by omega
    show readSequence first (b :: tail) = _
    rw [readSequence_cons hlead hsecond, hn, readRest, hback]
    rfl
  split at hnumbers
  · simp only [List.map_eq_cons_iff, List.map_eq_nil_iff] at hnumbers
    obtain ⟨a, _, rfl, ha, b, _, rfl, hb, d, _, rfl, hd, rfl⟩ := hnumbers
    obtain ⟨rfl, rfl⟩ := List.cons.inj h
    have hlead : lead? first = some (3, first.toNat - 0xE0) := lead?_eq_some_iff.mpr (by omega)
    have hsecond : allowsSecond first b = true := (allowsSecond_iff first b).mpr (by omega)
    have hthird : isContinuation d = true := (isContinuation_iff d).mpr (by omega)
    have hn : ((first.toNat - 0xE0) * 64 + (b.toNat - 0x80)) * 64 + (d.toNat - 0x80) = n := by omega
    show readSequence first (b :: d :: tail) = _
    rw [readSequence_cons hlead hsecond, readRest_cons hthird, hn, readRest, hback]
    rfl
  · simp only [List.map_eq_cons_iff, List.map_eq_nil_iff] at hnumbers
    obtain ⟨a, _, rfl, ha, b, _, rfl, hb, d, _, rfl, hd, e, _, rfl, he, rfl⟩ := hnumbers
    obtain ⟨rfl, rfl⟩ := List.cons.inj h
    have hlead : lead? first = some (4, first.toNat - 0xF0) := lead?_eq_some_iff.mpr (by omega)
    have hsecond : allowsSecond first b = true := (allowsSecond_iff first b).mpr (by omega)
    have hthird : isContinuation d = true := (isContinuation_iff d).mpr (by omega)
    have hfourth : isContinuation e = true := (isContinuation_iff e).mpr (by omega)
    have hn : (((first.toNat - 0xF0) * 64 + (b.toNat - 0x80)) * 64 + (d.toNat - 0x80)) * 64 +
        (e.toNat - 0x80) = n := by omega
    show readSequence first (b :: d :: e :: tail) = _
    rw [readSequence_cons hlead hsecond, readRest_cons hthird, readRest_cons hfourth, hn, readRest,
      hback]
    rfl

/-- Bytes are those of a character if they have its numbers. -/
theorem eq_utf8EncodeChar {bytes : List UInt8} {n : Nat}
    (hn : n < 0xD800 ∨ 0xDFFF < n ∧ n < 0x110000) (h : bytes.map UInt8.toNat = sequenceOf n) :
    bytes = String.utf8EncodeChar (Char.ofNat n) := by
  refine List.map_injective_iff.mpr (fun _ _ => UInt8.toNat_inj.mp) ?_
  rw [map_toNat_utf8EncodeChar, toNat_ofNat hn, h]

/-- A character that is not complete goes on with a continuation byte. -/
theorem exists_of_readRest_eq_char {taken bits missing size : Nat} {bytes : List UInt8} {c : Char}
    (h : readRest taken bits (missing + 1) bytes = .char c size) :
    ∃ b rest, bytes = b :: rest ∧ (0x80 ≤ b.toNat ∧ b.toNat < 0xC0) ∧
      readRest (taken + 1) (bits * 64 + (b.toNat - 0x80)) missing rest = .char c size := by
  cases bytes with
  | nil => cases h
  | cons b rest =>
    rw [readRest] at h
    split at h
    · rename_i hb
      exact ⟨b, rest, rfl, (isContinuation_iff b).mp hb, h⟩
    · cases h

/-- The bytes that a character was read from are its encoding. -/
theorem readSequence_eq_char {first : UInt8} {rest : List UInt8} {c : Char} {size : Nat}
    (h : readSequence first rest = .char c size) :
    ∃ tail, first :: rest = String.utf8EncodeChar c ++ tail ∧
      size = (String.utf8EncodeChar c).length := by
  -- It is enough to find bytes in front that have the numbers of a character.
  suffices hsequence : ∃ bytes tail n, first :: rest = bytes ++ tail ∧ size = bytes.length ∧
      c = Char.ofNat n ∧ (n < 0xD800 ∨ 0xDFFF < n ∧ n < 0x110000) ∧
      bytes.map UInt8.toNat = sequenceOf n by
    obtain ⟨bytes, tail, n, hbytes, hsize, rfl, hn, hnumbers⟩ := hsequence
    rw [← eq_utf8EncodeChar hn hnumbers]
    exact ⟨tail, hbytes, hsize⟩
  cases hlead : lead? first with
  | none => simp [readSequence, hlead] at h
  | some lead =>
    obtain ⟨size', bits⟩ := lead
    rcases lead?_eq_some_iff.mp hlead with ⟨hfirst, rfl, rfl⟩ | hmore
    · simp only [readSequence, hlead] at h
      obtain ⟨rfl, rfl⟩ := Sequence.char.inj h
      exact ⟨[first], rest, first.toNat, rfl, rfl, rfl, by omega, by simp [sequenceOf, hfirst]⟩
    · obtain ⟨missing, rfl⟩ : ∃ missing, size' = missing + 2 := ⟨size' - 2, by omega⟩
      cases rest with
      | nil => simp [readSequence, hlead] at h
      | cons second others =>
        by_cases hsecond : allowsSecond first second = true
        · rw [readSequence_cons hlead hsecond] at h
          rw [allowsSecond_iff] at hsecond
          rcases hmore with hmore | hmore | hmore
          · obtain rfl : missing = 0 := by omega
            obtain ⟨rfl, rfl⟩ := Sequence.char.inj h
            let n := bits * 64 + (second.toNat - 0x80)
            refine ⟨[first, second], others, n, rfl, rfl, rfl, by omega, ?_⟩
            unfold sequenceOf
            rw [if_neg (by omega), if_pos (by omega)]
            simp only [List.map_cons, List.map_nil, List.cons.injEq, and_true]
            omega
          · obtain rfl : missing = 1 := by omega
            obtain ⟨third, others, rfl, hthird, h⟩ := exists_of_readRest_eq_char h
            obtain ⟨rfl, rfl⟩ := Sequence.char.inj h
            let n := (bits * 64 + (second.toNat - 0x80)) * 64 + (third.toNat - 0x80)
            refine ⟨[first, second, third], others, n, rfl, rfl, rfl, by omega, ?_⟩
            unfold sequenceOf
            rw [if_neg (by omega), if_neg (by omega), if_pos (by omega)]
            simp only [List.map_cons, List.map_nil, List.cons.injEq, and_true]
            omega
          · obtain rfl : missing = 2 := by omega
            obtain ⟨third, others, rfl, hthird, h⟩ := exists_of_readRest_eq_char h
            obtain ⟨fourth, others, rfl, hfourth, h⟩ := exists_of_readRest_eq_char h
            obtain ⟨rfl, rfl⟩ := Sequence.char.inj h
            let n := ((bits * 64 + (second.toNat - 0x80)) * 64 + (third.toNat - 0x80)) * 64 +
              (fourth.toNat - 0x80)
            refine ⟨[first, second, third, fourth], others, n, rfl, rfl, rfl, by omega, ?_⟩
            unfold sequenceOf
            rw [if_neg (by omega), if_neg (by omega), if_neg (by omega)]
            simp only [List.map_cons, List.map_nil, List.cons.injEq, and_true]
            omega
        · simp [readSequence, hlead, hsecond] at h

/-- A sequence is read as a character just if it starts with the bytes of that character. -/
theorem readSequence_eq_char_iff {first : UInt8} {rest : List UInt8} {c : Char} {size : Nat} :
    readSequence first rest = .char c size ↔
      ∃ tail, first :: rest = String.utf8EncodeChar c ++ tail ∧
        size = (String.utf8EncodeChar c).length := by
  constructor
  · exact readSequence_eq_char
  · rintro ⟨tail, h, rfl⟩
    exact readSequence_encode h

/-! ## Sequences that are cut -/

/-- The rest of a sequence is cut off by the end of the bytes or not at all. -/
theorem readRest_of_append {taken bits missing size : Nat} {bytes more : List UInt8} {c : Char}
    (h : readRest taken bits missing (bytes ++ more) = .char c size) :
    readRest taken bits missing bytes = .char c size ∨
      readRest taken bits missing bytes = .bad .unexpectedEnd (taken + bytes.length) := by
  induction missing generalizing taken bits bytes with
  | zero =>
    rw [readRest] at h ⊢
    exact .inl h
  | succ missing ih =>
    -- The induction is on the bytes that are missing.
    cases bytes with
    | nil => exact .inr rfl
    | cons b rest =>
      rw [List.cons_append, readRest] at h
      rw [readRest]
      split at h
      · rename_i hb
        rw [if_pos hb, List.length_cons, Nat.add_comm rest.length 1, ← Nat.add_assoc]
        exact ih h
      · cases h

/-- A sequence that would be a character with further bytes is one without them, or it is cut
    short. -/
theorem readSequence_of_append {first : UInt8} {rest more : List UInt8} {c : Char} {size : Nat}
    (h : readSequence first (rest ++ more) = .char c size) :
    readSequence first rest = .char c size ∨
      ∃ taken, readSequence first rest = .bad .unexpectedEnd taken := by
  cases hlead : lead? first with
  | none => simp [readSequence, hlead] at h
  | some lead =>
    obtain ⟨size', bits⟩ := lead
    -- A sequence of one byte cannot be cut.
    rcases lead?_eq_some_iff.mp hlead with ⟨-, rfl, rfl⟩ | hmore
    · simp only [readSequence, hlead] at h ⊢
      exact .inl h
    · obtain ⟨missing, rfl⟩ : ∃ missing, size' = missing + 2 := ⟨size' - 2, by omega⟩
      cases rest with
      | nil => exact .inr ⟨1, by simp [readSequence, hlead]⟩
      | cons second others =>
        by_cases hsecond : allowsSecond first second = true
        · rw [List.cons_append, readSequence_cons hlead hsecond] at h
          rw [readSequence_cons hlead hsecond]
          exact (readRest_of_append h).imp_right fun hcut => ⟨_, hcut⟩
        · simp [readSequence, hlead, hsecond] at h

/-! ## Whole files -/

/-- Bytes that belong to a character already read are passed over. -/
theorem decodeFrom_skip (position : Nat) (acc : List Char) (skipped rest : List UInt8) :
    decodeFrom position skipped.length acc (skipped ++ rest) =
      decodeFrom (position + skipped.length) 0 acc rest := by
  induction skipped generalizing position with
  | nil => rfl
  | cons b skipped ih =>
    rw [List.length_cons, List.cons_append, decodeFrom, ih, Nat.add_assoc, Nat.add_comm 1]

/-- The bytes of a character in front are decoded to that character. -/
theorem decodeFrom_char (position : Nat) (acc : List Char) (c : Char) (rest : List UInt8) :
    decodeFrom position 0 acc (String.utf8EncodeChar c ++ rest) =
      decodeFrom (position + (String.utf8EncodeChar c).length) 0 (c :: acc) rest := by
  cases hbytes : String.utf8EncodeChar c with
  -- No encoding is empty.
  | nil =>
    have hlength := String.length_utf8EncodeChar c
    rw [hbytes] at hlength
    exact absurd hlength.symm (Nat.pos_iff_ne_zero.mp c.utf8Size_pos)
  | cons b bytes =>
    have hfront : b :: (bytes ++ rest) = String.utf8EncodeChar c ++ rest := by
      rw [hbytes]
      rfl
    have hsequence : readSequence b (bytes ++ rest) = .char c (bytes.length + 1) := by
      rw [readSequence_encode hfront, hbytes]
      rfl
    rw [List.cons_append, decodeFrom, hsequence]
    show decodeFrom (position + 1) bytes.length (c :: acc) (bytes ++ rest) = _
    rw [decodeFrom_skip, List.length_cons, Nat.add_assoc, Nat.add_comm 1]

/-- The bytes of a text in front are decoded to that text. -/
theorem decodeFrom_encode (position : Nat) (acc text : List Char) (rest : List UInt8) :
    decodeFrom position 0 acc (encode text ++ rest) =
      decodeFrom (position + (encode text).length) 0 (text.reverse ++ acc) rest := by
  induction text generalizing position acc with
  | nil => rfl
  | cons c text ih =>
    rw [encode_cons, List.append_assoc, decodeFrom_char, ih, List.length_append, Nat.add_assoc,
      List.reverse_cons, List.append_assoc, List.singleton_append]

/-- Bytes that begin a sequence and are cut short before its end. -/
def Stuck (left : List UInt8) : Prop :=
  ∀ position acc, decodeFrom position 0 acc left = .ok (acc, left)

theorem stuck_nil : Stuck [] := fun _ _ => rfl

/-- Bytes that end inside a sequence are stuck at it. -/
theorem stuck_cons {first : UInt8} {rest : List UInt8} {taken : Nat}
    (h : readSequence first rest = .bad .unexpectedEnd taken) : Stuck (first :: rest) := by
  intro position acc
  rw [decodeFrom, h]

/-- What is decoded is the bytes of the text that is gathered, and what is left over. -/
theorem exists_of_decodeFrom_eq_ok {bytes left : List UInt8} {position : Nat} {acc all : List Char}
    (h : decodeFrom position 0 acc bytes = .ok (all, left)) :
    ∃ text, all = text.reverse ++ acc ∧ bytes = encode text ++ left := by
  induction hlength : bytes.length using Nat.strongRecOn generalizing bytes position acc with
  | ind length ih =>
    -- Each turn takes one character off the front, so the bytes left are fewer.
    cases bytes with
    | nil =>
      obtain ⟨rfl, rfl⟩ := Prod.mk.inj (Except.ok.inj h)
      exact ⟨[], rfl, rfl⟩
    | cons b rest =>
      cases hsequence : readSequence b rest with
      | char c size =>
        obtain ⟨tail, hbytes, -⟩ := readSequence_eq_char_iff.mp hsequence
        rw [hbytes, decodeFrom_char] at h
        have hshorter : tail.length < length := by
          rw [← hlength, hbytes, List.length_append, String.length_utf8EncodeChar]
          exact Nat.lt_add_of_pos_left c.utf8Size_pos
        obtain ⟨text, rfl, rfl⟩ := ih tail.length hshorter h rfl
        refine ⟨c :: text, ?_, ?_⟩
        · rw [List.reverse_cons, List.append_assoc, List.singleton_append]
        · rw [hbytes, encode_cons, List.append_assoc]
      | bad fault size =>
        rw [decodeFrom, hsequence] at h
        cases fault with
        -- A sequence that is cut off is left over.
        | unexpectedEnd =>
          obtain ⟨rfl, rfl⟩ := Prod.mk.inj (Except.ok.inj h)
          exact ⟨[], rfl, rfl⟩
        | invalidStart => cases h
        | invalidContinuation => cases h

/-- The bytes of a text are decoded to that text. -/
theorem decode_encode (text : List Char) : decode (encode text) = .ok text := by
  have hdecode := decodeFrom_encode 0 [] text []
  rw [List.append_nil] at hdecode
  unfold decode
  rw [hdecode, decodeFrom]
  simp

/-- The bytes that are decoded are those of the result. -/
theorem decode_eq_ok_iff {bytes : List UInt8} {text : List Char} :
    decode bytes = .ok text ↔ bytes = encode text := by
  constructor
  · intro h
    unfold decode at h
    -- Bytes that are left over are an error.
    split at h
    · cases h
    · rename_i acc hdecode
      obtain ⟨decoded, rfl, hbytes⟩ := exists_of_decodeFrom_eq_ok hdecode
      obtain rfl := Except.ok.inj h
      simpa using hbytes
    · cases h
  · rintro rfl
    exact decode_encode text

/-- Texts with the same bytes are the same. -/
theorem encode_injective {text text' : List Char} (h : encode text = encode text') :
    text = text' := by
  have hdecode := decode_eq_ok_iff.mpr h
  rw [decode_encode] at hdecode
  exact Except.ok.inj hdecode

/-! ## Files in blocks -/

/-- The bytes of a text up to some place are decoded but for those that begin a sequence and are
    cut short. -/
theorem exists_decodeFrom_of_append {todo : List Char} {bytes more : List UInt8}
    (h : bytes ++ more = encode todo) (position : Nat) (acc : List Char) :
    ∃ done rest left, todo = done ++ rest ∧ Stuck left ∧ left ++ more = encode rest ∧
      decodeFrom position 0 acc bytes = .ok (done.reverse ++ acc, left) := by
  induction todo generalizing bytes position acc with
  | nil =>
    obtain ⟨rfl, rfl⟩ := List.append_eq_nil_iff.mp h
    exact ⟨[], [], [], rfl, stuck_nil, rfl, rfl⟩
  | cons c todo ih =>
    cases bytes with
    | nil => exact ⟨[], c :: todo, [], rfl, stuck_nil, h, rfl⟩
    | cons b bytes =>
      rw [List.cons_append, encode_cons] at h
      rcases readSequence_of_append (readSequence_encode h) with hsequence | ⟨taken, hcut⟩
      · -- The first character is complete.
        obtain ⟨tail, hbytes, -⟩ := readSequence_eq_char_iff.mp hsequence
        rw [← List.cons_append, hbytes, List.append_assoc] at h
        obtain ⟨done, rest, left, rfl, hstuck, hleft, hdecode⟩ :=
          ih (List.append_cancel_left h) (position + (String.utf8EncodeChar c).length) (c :: acc)
        refine ⟨c :: done, rest, left, rfl, hstuck, hleft, ?_⟩
        rw [hbytes, decodeFrom_char, hdecode, List.reverse_cons, List.append_assoc,
          List.singleton_append]
      · -- The bytes end inside the first character.
        exact ⟨[], c :: todo, b :: bytes, rfl, stuck_cons hcut, h, stuck_cons hcut position acc⟩

/-- Blocks are decoded to the text whose bytes they make up, with what was left over before. -/
theorem decodeBlocks_encode {size : Nat} (hsize : 0 < size) {fuel : Nat} {todo : List Char}
    {left bytes : List UInt8} (hstuck : Stuck left) (h : left ++ bytes = encode todo)
    (hfuel : bytes.length < fuel) (acc : List Char) :
    decodeBlocks size acc left fuel bytes = .ok (acc.reverse ++ todo) := by
  induction fuel generalizing todo left bytes acc with
  | zero => exact absurd hfuel (Nat.not_lt_zero _)
  | succ fuel ih =>
    cases bytes with
    | nil =>
      -- What is left over would be decoded, had it the bytes of a text.
      have hdecode := decodeFrom_encode 0 [] todo []
      rw [List.append_nil, ← h, List.append_nil, hstuck 0 []] at hdecode
      obtain ⟨htodo, rfl⟩ := Prod.mk.inj (Except.ok.inj hdecode)
      rw [List.append_nil, ← List.reverse_nil, List.reverse_inj] at htodo
      subst htodo
      rw [decodeBlocks, List.append_nil]
      rfl
    | cons b bytes =>
      have hblock : (left ++ (b :: bytes).take size) ++ (b :: bytes).drop size = encode todo := by
        rw [List.append_assoc, List.take_append_drop, h]
      obtain ⟨done, rest, left', rfl, hstuck', hleft, hdecode⟩ :=
        exists_decodeFrom_of_append hblock 0 acc
      have hshorter : ((b :: bytes).drop size).length < fuel := by
        rw [List.length_cons] at hfuel
        rw [List.length_drop, List.length_cons]
        omega
      unfold decodeBlocks
      simp only [hdecode]
      rw [ih hstuck' hleft hshorter, List.reverse_append, List.reverse_reverse, List.append_assoc]

/-- A file that is read in blocks is decoded to the text whose bytes it holds. -/
theorem decodeStream_encode (text : List Char) : decodeStream (encode text) = .ok text :=
  decodeBlocks_encode (by decide) stuck_nil rfl (Nat.lt_succ_self _) []

end Utf8

end TreeWalk
