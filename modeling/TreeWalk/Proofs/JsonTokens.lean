import Mathlib.Algebra.Group.Nat.Defs
import TreeWalk.Json.Reader
import TreeWalk.Json.Writer

/-! # JSON strings and numbers

A string that has been written is read back whatever its characters: those outside printable
ASCII go by the numbers of their UTF-16 units, which make the characters again.  An integer is
read back if it has no more digits than are read and nothing behind it could be part of a
numeral.

## Key results

* `readString_quoted` reads a string back.
* `readAtom_toString` reads an integer back.
-/

namespace TreeWalk

/-! ## Numerals -/

namespace Numeral

/-- One more digit at the end multiplies what is before it by the base. -/
theorem value_append_singleton (base : Nat) (digits : List Char) (c : Char) :
    value base (digits ++ [c]) = value base digits * base + digitValue c :=
  List.foldl_append

/-- A digit has the value that it is the digit of. -/
theorem digitValue_digitChar : ∀ d < 16, digitValue (Nat.digitChar d) = d := by
  decide

/-- Hexadecimal digits spell the lowest part of their number. -/
theorem value_hex (width n : Nat) : value 16 (Quoted.hex width n) = n % 16 ^ width := by
  induction width generalizing n with
  | zero => rw [Nat.pow_zero, Nat.mod_one]; rfl
  | succ width ih =>
    have hlow := digitValue_digitChar (n % 16) (Nat.mod_lt _ (by decide))
    rw [Quoted.hex, value_append_singleton, ih, hlow, Nat.pow_succ', Nat.mod_mul]
    omega

/-- Decimal digits spell their number. -/
theorem value_toDigits (n : Nat) : value 10 (Nat.toDigits 10 n) = n := by
  -- The induction follows the digits from the lowest one.
  induction n using Nat.strongRecOn with
  | ind n ih =>
    rcases Nat.lt_or_ge n 10 with hlt | hge
    · rw [Nat.toDigits_of_lt_base hlt]
      show 0 * 10 + digitValue (Nat.digitChar n) = n
      rw [digitValue_digitChar n (by omega)]
      omega
    · rw [Nat.toDigits_of_base_le (by decide) hge, value_append_singleton,
        ih (n / 10) (by omega), digitValue_digitChar (n % 10) (by omega)]
      omega

/-- Whether a number has no more digits than a limit allows. -/
def Within (limit : Option Nat) (n : Nat) : Prop :=
  ∀ most ∈ limit, (Nat.toDigits 10 n).length ≤ most

/-- Decimal digits are read if they are not too many. -/
theorem decimalUpTo_toDigits {limit : Option Nat} {n : Nat} (hn : Within limit n) :
    decimalUpTo limit (Nat.toDigits 10 n) = .ok n := by
  have hlength : limit.all ((Nat.toDigits 10 n).length ≤ ·) = true := by
    rw [Option.all_eq_true]
    intro most hmost
    exact decide_eq_true (hn most hmost)
  rw [decimalUpTo, if_pos hlength, value_toDigits]

/-- A number has a first digit. -/
theorem exists_toDigits_eq (n : Nat) :
    ∃ c digits, Nat.toDigits 10 n = c :: digits ∧ c.isDigit = true := by
  obtain ⟨c, digits, hdigits⟩ :=
    List.exists_cons_of_ne_nil (Nat.toDigits_ne_nil (n := n) (b := 10))
  have hmem : c ∈ Nat.toDigits 10 n := by
    rw [hdigits]
    exact List.mem_cons_self
  exact ⟨c, digits, hdigits, Nat.isDigit_of_mem_toDigits (by decide) (by decide) hmem⟩

/-- Only zero begins with a zero. -/
theorem head?_toDigits {n : Nat} (hn : 0 < n) : (Nat.toDigits 10 n).head? ≠ some '0' := by
  -- The first digit is that of the number without its last one.
  induction n using Nat.strongRecOn with
  | ind n ih =>
    rcases Nat.lt_or_ge n 10 with hlt | hge
    · rw [Nat.toDigits_of_lt_base hlt]
      have hdigit : ∀ d < 10, 0 < d → [Nat.digitChar d].head? ≠ some '0' := by decide
      exact hdigit n hlt hn
    · obtain ⟨c, digits, hdigits, -⟩ := exists_toDigits_eq (n / 10)
      have hfirst := ih (n / 10) (by omega) (by omega)
      rw [Nat.toDigits_of_base_le (by decide) hge, hdigits]
      rwa [hdigits] at hfirst

end Numeral

namespace Json

/-! ## Strings -/

/-- The UTF-16 units of a character. -/
def unitsOf (c : Char) : List Nat :=
  if c.toNat < 0x10000 then [c.toNat]
  else [0xD800 + (c.toNat - 0x10000) / 0x400, 0xDC00 + (c.toNat - 0x10000) % 0x400]

/-- No character has the number of half a pair. -/
theorem toNat_range (c : Char) :
    c.toNat < 0xD800 ∨ 0xDFFF < c.toNat ∧ c.toNat < 0x110000 :=
  c.valid

variable {opening : Nat} {units : List Nat} {rest : List Char}

/-- The characters for the digits below sixteen are hexadecimal. -/
theorem isHexDigit_digitChar : ∀ d < 16, isHexDigit (Nat.digitChar d) = true := by
  decide

/-- A unit is read back from its number.  The reader looks for one more character, which a
    string always has. -/
theorem readUnits_unitEscape {n : Nat} (hn : n < 0x10000) (hrest : rest ≠ []) :
    readUnits opening units (unitEscape n ++ rest) = readUnits opening (n :: units) rest := by
  obtain ⟨e, rest, rfl⟩ := List.exists_cons_of_ne_nil hrest
  -- The four digits stand for the number, as it has no more than four.
  have hvalue : Numeral.value 16 (Quoted.hex 4 n) = n := by
    rw [Numeral.value_hex]
    exact Nat.mod_eq_of_lt hn
  have hdigits : (Quoted.hex 4 n).all isHexDigit = true := by
    simp [Quoted.hex, isHexDigit_digitChar, Nat.mod_lt]
  obtain ⟨a, b, c, d, hhex⟩ : ∃ a b c d, Quoted.hex 4 n = [a, b, c, d] := ⟨_, _, _, _, rfl⟩
  rw [hhex] at hvalue hdigits
  rw [unitEscape, hhex]
  show readUnits opening units ('\\' :: 'u' :: a :: b :: c :: d :: e :: rest) = _
  rw [readUnits, if_pos hdigits, hvalue]

/-- A letter after a backslash is read as what it stands for. -/
theorem readUnits_shortEscape {letter plain : Char} (h : shortEscape? letter = some plain) :
    readUnits opening units ('\\' :: letter :: rest) =
      readUnits opening (plain.toNat :: units) rest := by
  have hletter : letter ≠ 'u' := by
    rintro rfl
    cases h
  rw [readUnits, h]
  · simp [hletter]
  · simp [hletter]

/-- A plain character is read as it is. -/
theorem readUnits_plain {c : Char} (hquote : c ≠ '"') (hslash : c ≠ '\\') (hc : 32 ≤ c.toNat) :
    readUnits opening units (c :: rest) = readUnits opening (c.toNat :: units) rest := by
  have hnot : ¬ c.toNat < 0x20 := by omega
  rw [readUnits, if_neg hnot]
  all_goals simp [hquote, hslash]

/-- A character is read back as its units. -/
theorem readUnits_escapeChar (c : Char) (hrest : rest ≠ []) :
    readUnits opening units (escapeChar c ++ rest) =
      readUnits opening ((unitsOf c).reverse ++ units) rest := by
  -- A character that is no pair has its own number for its only unit.
  have hone : c.toNat < 0x10000 → (unitsOf c).reverse ++ units = c.toNat :: units := by
    intro hc
    rw [unitsOf, if_pos hc]
    rfl
  have hshort : ∀ letter, shortEscape? letter = some c → c.toNat < 0x10000 →
      readUnits opening units ('\\' :: letter :: rest) =
        readUnits opening ((unitsOf c).reverse ++ units) rest := by
    intro letter hletter hc
    rw [hone hc, readUnits_shortEscape hletter]
  unfold escapeChar
  split
  · next h =>
    rcases h with rfl | rfl
    · exact hshort '"' rfl (by decide)
    · exact hshort '\\' rfl (by decide)
  next hspecial =>
  obtain ⟨hquote, hslash⟩ := not_or.mp hspecial
  split
  · next h => subst h; exact hshort 'n' rfl (by decide)
  split
  · next h => subst h; exact hshort 'r' rfl (by decide)
  split
  · next h => subst h; exact hshort 't' rfl (by decide)
  split
  · next h => subst h; exact hshort 'f' rfl (by decide)
  split
  · next h => subst h; exact hshort 'b' rfl (by decide)
  split
  · next h =>
    rw [hone (by omega)]
    exact readUnits_plain hquote hslash h.1
  split
  · next h =>
    rw [hone h]
    exact readUnits_unitEscape h hrest
  · next h =>
    have hrange := toNat_range c
    have hpair : unitEscape (0xDC00 + (c.toNat - 0x10000) % 0x400) ++ rest ≠ [] := by
      simp [unitEscape]
    rw [unitsOf, if_neg h, List.append_assoc, readUnits_unitEscape (by omega) hpair,
      readUnits_unitEscape (by omega) hrest]
    rfl

/-- The units between quotes are those of the characters. -/
theorem readUnits_quoted (cs : List Char) :
    readUnits opening units (cs.flatMap escapeChar ++ '"' :: rest) =
      .ok (units.reverse ++ cs.flatMap unitsOf, rest) := by
  induction cs generalizing units with
  | nil =>
    show readUnits opening units ('"' :: rest) = _
    rw [readUnits, List.flatMap_nil, List.append_nil]
  | cons c cs ih =>
    have hne : cs.flatMap escapeChar ++ '"' :: rest ≠ [] := by simp
    rw [List.flatMap_cons, List.append_assoc, readUnits_escapeChar c hne, ih, List.reverse_append,
      List.reverse_reverse, List.append_assoc, List.flatMap_cons]

/-- No character is half a surrogate pair. -/
theorem not_isSurrogate (c : Char) : isSurrogate c.toNat = false := by
  have hrange := toNat_range c
  simp only [isSurrogate, isHighSurrogate, isLowSurrogate, Bool.or_eq_false_iff,
    Bool.and_eq_false_iff, decide_eq_false_iff_not]
  omega

/-- A single unit is a character of its own, whatever follows. -/
theorem joinUnits_cons {c : Char} (rest : List Nat) :
    joinUnits (c.toNat :: rest) = (joinUnits rest).map (c :: ·) := by
  have hnot := not_isSurrogate c
  obtain ⟨hhigh, -⟩ := Bool.or_eq_false_iff.mp hnot
  cases rest with
  | nil => simp [joinUnits, hnot]
  | cons low rest => simp [joinUnits, hhigh, hnot]

/-- The units of a character make the character. -/
theorem joinUnits_unitsOf (c : Char) (rest : List Nat) :
    joinUnits (unitsOf c ++ rest) = (joinUnits rest).map (c :: ·) := by
  unfold unitsOf
  split
  · exact joinUnits_cons rest
  · next h =>
    -- A character beyond the first plane is written as two units, and the number is put together
    -- again.
    have hrange := toNat_range c
    generalize hhigh : 0xD800 + (c.toNat - 0x10000) / 0x400 = high
    generalize hlow : 0xDC00 + (c.toNat - 0x10000) % 0x400 = low
    have hpair : (isHighSurrogate high && isLowSurrogate low) = true := by
      simp only [isHighSurrogate, isLowSurrogate, Bool.and_eq_true, decide_eq_true_eq]
      omega
    have hnumber : 0x10000 + (high - 0xD800) * 0x400 + (low - 0xDC00) = c.toNat := by omega
    show joinUnits (high :: low :: rest) = _
    rw [joinUnits, if_pos hpair, hnumber, Char.ofNat_toNat]

/-- The units of characters are joined to these characters. -/
theorem joinUnits_flatMap_unitsOf (cs : List Char) :
    joinUnits (cs.flatMap unitsOf) = some cs := by
  induction cs with
  | nil => rfl
  | cons c cs ih => rw [List.flatMap_cons, joinUnits_unitsOf, ih, Option.map_some]

/-- A text in quotes, and what comes behind it. -/
theorem quote_append (s : String) (rest : List Char) :
    quote s ++ rest = '"' :: (s.toList.flatMap escapeChar ++ '"' :: rest) := by
  simp [quote]

/-- A string is read back whatever its characters. -/
theorem readString_quoted (s : String) (rest : List Char) :
    readString (s.toList.flatMap escapeChar ++ '"' :: rest) = .ok (s, rest) := by
  unfold readString
  rw [readUnits_quoted, List.reverse_nil, List.nil_append]
  simp only [bind, Except.bind, joinUnits_flatMap_unitsOf, String.ofList_toList]
  rfl

/-! ## Numbers -/

variable {limit : Option Nat}

/-- What may follow a number that is complete: nothing, a blank or a comma. -/
def Delimited (rest : List Char) : Prop :=
  ∀ c ∈ rest.head?, isBlank c = true ∨ c = ','

/-- No part of a numeral follows where it is delimited. -/
theorem Delimited.stops (h : Delimited rest) :
    rest.takeWhile Char.isDigit = [] ∧ rest.dropWhile Char.isDigit = rest ∧
      fractionDigits rest = ([], rest) ∧ exponent? rest = none := by
  cases rest with
  | nil => exact ⟨rfl, rfl, rfl, rfl⟩
  | cons c rest =>
    have hc : c = ' ' ∨ c = '\t' ∨ c = '\n' ∨ c = '\r' ∨ c = ',' := by
      simpa [isBlank, or_assoc] using h c rfl
    rcases hc with rfl | rfl | rfl | rfl | rfl <;> exact ⟨rfl, rfl, rfl, rfl⟩

/-- The digits of a number are read up to its end. -/
theorem wholeDigits_toDigits (n : Nat) (hrest : Delimited rest) :
    wholeDigits (Nat.toDigits 10 n ++ rest) = (Nat.toDigits 10 n, rest) := by
  obtain ⟨htake, hdrop, -⟩ := hrest.stops
  have hall : ∀ c ∈ Nat.toDigits 10 n, c.isDigit = true := fun c hc =>
    Nat.isDigit_of_mem_toDigits (by decide) (by decide) hc
  have hspan : (Nat.toDigits 10 n ++ rest).takeWhile Char.isDigit = Nat.toDigits 10 n ∧
      (Nat.toDigits 10 n ++ rest).dropWhile Char.isDigit = rest := by
    rw [List.takeWhile_append_of_pos hall, List.dropWhile_append_of_pos hall, htake, hdrop,
      List.append_nil]
    exact ⟨rfl, rfl⟩
  rcases Nat.eq_zero_or_pos n with rfl | hn
  · rfl
  · -- The first digit is not the zero that stands alone.
    have hfirst := Numeral.head?_toDigits hn
    obtain ⟨c, digits, hdigits, -⟩ := Numeral.exists_toDigits_eq n
    rw [hdigits] at hspan hfirst ⊢
    rw [List.cons_append] at hspan ⊢
    rw [wholeDigits, hspan.1, hspan.2]
    intro _ hzero
    exact hfirst (congrArg some (List.cons.inj hzero).1)

/-- A number that is not too long is read back. -/
theorem readNumeral_toDigits (negative : Bool) (whole : List Char) {n : Nat}
    (hn : Numeral.Within limit n) (hrest : Delimited rest) :
    readNumeral limit negative whole (Nat.toDigits 10 n ++ rest) =
      .ok (.int (if negative then -n else n), rest) := by
  obtain ⟨-, -, hfraction, hexponent⟩ := hrest.stops
  have hdecimal := Numeral.decimalUpTo_toDigits hn
  unfold readNumeral
  rw [wholeDigits_toDigits n hrest]
  simp only [if_neg (Nat.toDigits_ne_nil (n := n) (b := 10)), hfraction, hexponent, hdecimal,
    ↓reduceIte]
  rfl

/-- A digit is none of the other characters. -/
theorem ne_of_isDigit {c other : Char} (hc : c.isDigit = true) (hother : other.isDigit = false) :
    c ≠ other := by
  rintro rfl
  rw [hc] at hother
  cases hother

/-- Where a digit stands a numeral is read. -/
theorem readAtom_of_isDigit {c : Char} (hc : c.isDigit = true) :
    readAtom limit (c :: rest) = readNumeral limit false (c :: rest) (c :: rest) := by
  rw [readAtom]
  all_goals
    intro _ heq
    exact ne_of_isDigit hc rfl (List.cons.inj heq).1

/-- The same behind a minus sign. -/
theorem readAtom_minus {c : Char} (hc : c.isDigit = true) :
    readAtom limit ('-' :: c :: rest) = readNumeral limit true ('-' :: c :: rest) (c :: rest) := by
  rw [readAtom]
  intro _ heq
  exact ne_of_isDigit hc rfl (List.cons.inj heq).1

/-- The digits of an integer, behind a minus sign if it is negative. -/
theorem toList_toString (n : Int) :
    (toString n).toList =
      if 0 ≤ n then Nat.toDigits 10 n.natAbs else '-' :: Nat.toDigits 10 n.natAbs := by
  rw [Int.toString_eq_repr, Int.repr_eq_if]
  split
  · next hsign =>
    have habs : n.toNat = n.natAbs := by omega
    rw [Nat.toList_repr, habs]
  · next hsign =>
    have habs : (-n).toNat = n.natAbs := by omega
    rw [String.toList_append, Nat.toList_repr, habs]
    rfl

/-- An integer that is not too long is read back. -/
theorem readAtom_toString {n : Int} (hn : Numeral.Within limit n.natAbs)
    (hrest : Delimited rest) :
    readAtom limit ((toString n).toList ++ rest) = .ok (.int n, rest) := by
  obtain ⟨c, digits, hdigits, hc⟩ := Numeral.exists_toDigits_eq n.natAbs
  have hread := fun negative whole => readNumeral_toDigits negative whole hn hrest
  rw [toList_toString]
  rw [hdigits] at hread ⊢
  -- A sign is read apart from the digits, and put in front of the number.
  split
  · next hsign =>
    rw [List.cons_append, readAtom_of_isDigit hc]
    rw [List.cons_append] at hread
    rw [hread, if_neg Bool.false_ne_true, Int.natAbs_of_nonneg hsign]
  · next hsign =>
    rw [List.cons_append, List.cons_append, readAtom_minus hc]
    rw [List.cons_append] at hread
    have habs : -(n.natAbs : Int) = n := by omega
    rw [hread, if_pos rfl, habs]

/-! ## Plain ASCII -/

/-- Whether there are only ASCII characters in a text. -/
def IsAscii (cs : List Char) : Prop :=
  ∀ c ∈ cs, c.toNat < 128

namespace IsAscii

/-- Nothing at all is in ASCII. -/
theorem nil : IsAscii [] := by
  simp [IsAscii]

/-- One more character in ASCII keeps the text in ASCII. -/
theorem cons {c : Char} {cs : List Char} (hc : c.toNat < 128) (hcs : IsAscii cs) :
    IsAscii (c :: cs) :=
  List.forall_mem_cons.mpr ⟨hc, hcs⟩

/-- Two texts in ASCII make one in ASCII. -/
theorem append {cs more : List Char} (hcs : IsAscii cs) (hmore : IsAscii more) :
    IsAscii (cs ++ more) :=
  List.forall_mem_append.mpr ⟨hcs, hmore⟩

/-- Hexadecimal digits are in ASCII. -/
theorem hex (width n : Nat) : IsAscii (Quoted.hex width n) := by
  have hdigit : ∀ d < 16, (Nat.digitChar d).toNat < 128 := by decide
  induction width generalizing n with
  | zero => exact nil
  | succ width ih => exact (ih _).append (nil.cons (hdigit _ (Nat.mod_lt _ (by decide))))

/-- Whatever the character, its escape is in ASCII. -/
theorem escapeChar (c : Char) : IsAscii (Json.escapeChar c) := by
  have hunit : ∀ n, IsAscii (unitEscape n) := fun n => ((hex 4 n).cons (by decide)).cons (by decide)
  have hshort : ∀ letter : Char, letter.toNat < 128 → IsAscii ['\\', letter] :=
    fun letter hletter => (nil.cons hletter).cons (by decide)
  -- The branches are those of the escapes: a letter, five special ones, the character itself, one
  -- unit or two.
  unfold Json.escapeChar
  split
  · next h => rcases h with rfl | rfl <;> exact hshort _ (by decide)
  iterate 5
    split
    · exact hshort _ (by decide)
  split
  · next h => exact nil.cons (by omega)
  split
  · exact hunit _
  · exact (hunit _).append (hunit _)

/-- Whatever the text, it is in ASCII once it is in quotes. -/
theorem quote (s : String) : IsAscii (Json.quote s) := by
  have hinner : IsAscii (s.toList.flatMap Json.escapeChar) := by
    intro c hc
    obtain ⟨plain, -, hplain⟩ := List.mem_flatMap.mp hc
    exact escapeChar plain c hplain
  exact (hinner.cons (by decide)).append (nil.cons (by decide))

/-- Integers are in ASCII. -/
theorem toString (n : Int) : IsAscii (ToString.toString n).toList := by
  have hdigits : IsAscii (Nat.toDigits 10 n.natAbs) := by
    intro c hc
    have hc := Nat.isDigit_of_mem_toDigits (b := 10) (by decide) (by decide) hc
    have hlast := (Char.isDigit_iff_toNat.mp hc).2
    exact Nat.lt_of_le_of_lt hlast (by decide)
  rw [toList_toString]
  split
  · exact hdigits
  · exact hdigits.cons (by decide)

end IsAscii

end Json

end TreeWalk
