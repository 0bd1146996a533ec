import Mathlib.Data.List.Infix
import TreeWalk.Json.Reader

/-! # Long numerals in JSON

A reader of JSON leaves an end of the characters it was given.  The one thing it refuses in a
well-formed document is an integer with too many digits, and these digits stand side by side in
the text.

## Key results

* `Json.Keeps` is what holds of every reader, and is closed under reading one thing after
  another.
* `Json.digits_of_read_eq_error` says where digits stand that are too many.
-/

namespace TreeWalk

/-- A numeral is refused if its digits are too many. -/
theorem Numeral.of_decimalUpTo_eq_error {limit : Option Nat} {digits : List Char}
    {e : NumeralTooLong} (h : decimalUpTo limit digits = .error e) :
    e.digits = digits.length ∧ ∀ most ∈ limit, most < digits.length := by
  unfold decimalUpTo at h
  split at h
  · cases h
  · rename_i hlong
    obtain rfl := Except.error.inj h
    refine ⟨rfl, ?_⟩
    rintro most ⟨⟩
    simpa using hlong

namespace FloatText

/-- What is left behind a run of digits is an end of the text. -/
theorem takeDigits_suffix {acc count n k : Nat} {cs rest : List Char}
    (h : takeDigits acc count cs = (n, k, rest)) : rest <:+ cs := by
  induction cs generalizing acc count with
  | nil =>
    obtain ⟨-, -, rfl⟩ := by simpa [takeDigits] using h
    exact List.suffix_refl _
  | cons c tail ih =>
    rw [takeDigits] at h
    split at h
    · exact (ih h).trans (List.suffix_cons c tail)
    · obtain ⟨-, -, rfl⟩ := by simpa using h
      exact List.suffix_refl _

/-- What is left behind an exponent is an end of the text. -/
theorem readExponent?_suffix {cs rest : List Char} {e : Int}
    (h : readExponent? cs = some (e, rest)) : rest <:+ cs := by
  unfold readExponent? at h
  split at h
  · split at h
    · cases h
    · rename_i hdigits
      obtain ⟨-, rfl⟩ := Prod.mk.inj (Option.some.inj h)
      exact (takeDigits_suffix hdigits).trans (List.suffix_cons _ _)
  · -- The sign is left out if there is one; what is read behind it is a run of digits.
    dsimp only at h
    split at h
    · cases h
    · rename_i hdigits
      obtain ⟨-, rfl⟩ := Prod.mk.inj (Option.some.inj h)
      refine (takeDigits_suffix hdigits).trans ?_
      split
      · exact List.suffix_cons _ _
      · exact List.suffix_refl _

end FloatText

namespace Json

variable {α β : Type} {limit : Option Nat} {cs cs' rest : List Char}

/-- Whether a text holds so many digits side by side. -/
def HasDigits (count : Nat) (text : List Char) : Prop :=
  ∃ run, run <:+: text ∧ run.length = count ∧ ∀ c ∈ run, c.isDigit = true

/-- A text has the digits that an end of it has. -/
theorem HasDigits.of_suffix {count : Nat} (h : HasDigits count rest) (hsuffix : rest <:+ cs) :
    HasDigits count cs := by
  obtain ⟨run, hrun, hlength, hdigits⟩ := h
  exact ⟨run, hrun.trans hsuffix.isInfix, hlength, hdigits⟩

/-- What is known of what is read from characters: an end of them is left, and if a numeral is
    refused then its digits are too many and stand among them. -/
structure Keeps (limit : Option Nat) (cs : List Char) (result : Except Error (α × List Char)) :
    Prop where
  left : ∀ a rest, result = .ok (a, rest) → rest <:+ cs
  digits : ∀ e, result = .error (.numeral e) →
    HasDigits e.digits cs ∧ ∀ most ∈ limit, most < e.digits

namespace Keeps

/-- To leave an end of the text behind is to keep to it. -/
theorem ok {a : α} (h : rest <:+ cs) : Keeps limit cs (.ok (a, rest)) where
  left a' rest' heq := by
    obtain ⟨-, rfl⟩ := Prod.mk.inj (Except.ok.inj heq)
    exact h
  digits e heq := by cases heq

/-- A malformed text says nothing of its digits. -/
theorem malformed {fault : Fault} {left : Nat} :
    Keeps (α := α) limit cs (.error (.malformed fault left)) where
  left a rest heq := by cases heq
  digits e heq := by cases heq

/-- Nor does half a surrogate pair. -/
theorem halfPair : Keeps (α := α) limit cs (.error .halfPair) where
  left a rest heq := by cases heq
  digits e heq := by cases heq

/-- What is read from an end of the characters is read from the characters. -/
theorem of_suffix {result : Except Error (α × List Char)} (h : Keeps limit rest result)
    (hsuffix : rest <:+ cs) : Keeps limit cs result where
  left a rest' heq := (h.left a rest' heq).trans hsuffix
  digits e heq := (h.digits e heq).imp_left fun hdigits => hdigits.of_suffix hsuffix

/-- What is read behind the first character is read from the characters. -/
theorem behind {result : Except Error (α × List Char)} {c : Char} (hcs : cs = c :: rest)
    (h : Keeps limit rest result) : Keeps limit cs result :=
  h.of_suffix (by rw [hcs]; exact List.suffix_cons c rest)

/-- What keeps to the text behind the blanks keeps to the text. -/
theorem afterBlanks {result : Except Error (α × List Char)}
    (h : Keeps limit (skipBlanks cs) result) : Keeps limit cs result :=
  h.of_suffix (List.dropWhile_suffix _)

/-- What is read next is read from what is left. -/
theorem bind {first : Except Error (α × List Char)}
    {next : α × List Char → Except Error (β × List Char)} (h : Keeps limit cs first)
    (hnext : ∀ a rest, Keeps limit rest (next (a, rest))) : Keeps limit cs (first >>= next) := by
  cases first with
  | error e =>
    constructor
    · intro b rest heq
      cases heq
    · intro e' heq
      obtain rfl := Except.error.inj heq
      exact h.digits e' rfl
  | ok read =>
    -- What comes next keeps to what the first left, which is an end of the text.
    obtain ⟨a, rest⟩ := read
    exact (hnext a rest).of_suffix (h.left a rest rfl)

end Keeps

/-! ## Strings -/

/-- The characters of a string are read to an end of the text. -/
theorem keeps_readUnits (opening : Nat) (units : List Nat) (cs : List Char) :
    Keeps limit cs (readUnits opening units cs) := by
  fun_induction readUnits opening units cs with
  | case1 | case3 | case5 | case6 | case8 | case9 => exact .malformed
  | case2 units rest => exact .ok (List.suffix_cons _ rest)
  | case4 units a b c d e rest _ ih =>
    exact ih.of_suffix (List.suffix_append ['\\', 'u', a, b, c, d] _)
  | case7 units c rest _ _ plain _ ih => exact ih.of_suffix (List.suffix_append ['\\', c] rest)
  | case10 units c rest _ _ _ _ _ _ ih => exact ih.of_suffix (List.suffix_cons c rest)

/-- A string is read to an end of the text. -/
theorem keeps_readString (cs : List Char) : Keeps limit cs (readString cs) := by
  refine (keeps_readUnits _ _ cs).bind fun units rest => ?_
  dsimp only
  cases joinUnits units with
  | some text => exact .ok (List.suffix_refl rest)
  | none => exact .halfPair

/-! ## Numbers -/

/-- What is left behind the whole part is an end of the text. -/
theorem wholeDigits_suffix (cs : List Char) : (wholeDigits cs).2 <:+ cs := by
  unfold wholeDigits
  split
  · exact List.suffix_cons _ _
  · exact List.dropWhile_suffix _

/-- The digits of a whole part stand at the start. -/
theorem hasDigits_wholeDigits (cs : List Char) : HasDigits (wholeDigits cs).1.length cs := by
  unfold wholeDigits
  split
  · rename_i rest
    exact ⟨['0'], List.prefix_append ['0'] rest |>.isInfix, rfl, by simp⟩
  · exact ⟨_, (List.takeWhile_prefix _).isInfix, rfl, List.all_eq_true.mp List.all_takeWhile⟩

/-- What is left behind the fraction is an end of the text. -/
theorem fractionDigits_suffix (cs : List Char) : (fractionDigits cs).2 <:+ cs := by
  unfold fractionDigits
  split
  · split
    · exact List.suffix_refl _
    · exact (List.dropWhile_suffix _).trans (List.suffix_cons _ _)
  · exact List.suffix_refl _

/-- What is left behind an exponent is an end of the text, if it has one. -/
theorem exponent?_suffix {e : Int} (h : exponent? cs = some (e, rest)) : rest <:+ cs := by
  unfold exponent? at h
  split at h
  · exact (FloatText.readExponent?_suffix h).trans (List.suffix_cons _ _)
  · exact (FloatText.readExponent?_suffix h).trans (List.suffix_cons _ _)
  · cases h

/-- A numeral is read to an end of the text, or it is too long and the text has its digits. -/
theorem keeps_readNumeral (negative : Bool) (whole cs : List Char) :
    Keeps limit cs (readNumeral limit negative whole cs) := by
  have hfraction := (fractionDigits_suffix (wholeDigits cs).2).trans (wholeDigits_suffix cs)
  unfold readNumeral
  dsimp only
  split
  · exact .malformed
  · split
    · rename_i hexponent
      exact .ok ((exponent?_suffix hexponent).trans hfraction)
    · split
      · cases hdecimal : Numeral.decimalUpTo limit (wholeDigits cs).1 with
        | ok n => exact .ok hfraction
        | error e =>
          -- The digits are refused for their number.
          obtain ⟨hlength, hlong⟩ := Numeral.of_decimalUpTo_eq_error hdecimal
          constructor
          · intro _ _ heq
            cases heq
          · rintro _ ⟨⟩
            rw [hlength]
            exact ⟨hasDigits_wholeDigits cs, hlong⟩
      · exact .ok hfraction

/-- So it is with everything but strings and what holds other values. -/
theorem keeps_readAtom (cs : List Char) : Keeps limit cs (readAtom limit cs) := by
  unfold readAtom
  split
  case h_7 => exact (keeps_readNumeral _ _ _).of_suffix (List.suffix_cons _ _)
  case h_8 => exact keeps_readNumeral _ _ _
  case h_1 => exact .ok (List.suffix_append ['n', 'u', 'l', 'l'] _)
  case h_2 => exact .ok (List.suffix_append ['t', 'r', 'u', 'e'] _)
  case h_3 => exact .ok (List.suffix_append ['f', 'a', 'l', 's', 'e'] _)
  case h_4 => exact .ok (List.suffix_append ['N', 'a', 'N'] _)
  case h_5 => exact .ok (List.suffix_append ['I', 'n', 'f', 'i', 'n', 'i', 't', 'y'] _)
  case h_6 => exact .ok (List.suffix_append ['-', 'I', 'n', 'f', 'i', 'n', 'i', 't', 'y'] _)

/-! ## Arrays and objects -/

mutual

/-- What is known of reading a value. -/
theorem keeps_readValue : ∀ (fuel : Nat) (cs : List Char),
    Keeps limit cs (readValue limit fuel cs)
  | 0, cs => by
    rw [readValue]
    exact .malformed
  | fuel + 1, cs => by
    -- Strings, arrays and objects start with a character of their own, which is dropped first.
    unfold readValue
    split
    · rename_i rest
      exact .behind rfl ((keeps_readString rest).bind fun _ left => .ok (List.suffix_refl left))
    · refine .behind rfl (.afterBlanks ?_)
      split
      · rename_i hclosed
        exact .behind hclosed (.ok (List.suffix_refl _))
      · exact (keeps_readItems fuel _).bind fun _ left => .ok (List.suffix_refl left)
    · refine .behind rfl (.afterBlanks ?_)
      split
      · rename_i hclosed
        exact .behind hclosed (.ok (List.suffix_refl _))
      · exact (keeps_readEntries fuel _).bind fun _ left => .ok (List.suffix_refl left)
    · exact keeps_readAtom _

/-- What is known of reading the items of an array. -/
theorem keeps_readItems : ∀ (fuel : Nat) (cs : List Char),
    Keeps limit cs (readItems limit fuel cs)
  | 0, cs => by
    rw [readItems]
    exact .malformed
  | fuel + 1, cs => by
    rw [readItems]
    refine (keeps_readValue fuel cs).bind fun item rest => .afterBlanks ?_
    dsimp only
    -- Behind an item the array is closed, or a comma parts it from the next one.
    split
    · rename_i hclosed
      exact .behind hclosed (.ok (List.suffix_refl _))
    · rename_i hparted
      refine .behind hparted (.afterBlanks ?_)
      exact (keeps_readItems fuel _).bind fun _ left => .ok (List.suffix_refl left)
    · exact .malformed

/-- What is known of reading the entries of an object. -/
theorem keeps_readEntries : ∀ (fuel : Nat) (cs : List Char),
    Keeps limit cs (readEntries limit fuel cs)
  | 0, cs => by
    rw [readEntries]
    exact .malformed
  | fuel + 1, cs => by
    unfold readEntries
    split
    · rename_i rest
      -- The key, the colon, the value and what comes after it.
      refine .behind rfl ((keeps_readString rest).bind fun key rest => .afterBlanks ?_)
      dsimp only
      split
      · rename_i hcolon
        refine .behind hcolon (.afterBlanks ?_)
        refine (keeps_readValue fuel _).bind fun value rest => .afterBlanks ?_
        dsimp only
        split
        · rename_i hclosed
          exact .behind hclosed (.ok (List.suffix_refl _))
        · rename_i hparted
          refine .behind hparted (.afterBlanks ?_)
          exact (keeps_readEntries fuel _).bind fun _ left => .ok (List.suffix_refl left)
        · exact .malformed
      · exact .malformed
    · exact .malformed

end

/-- A document is refused for an integer only if too many digits stand side by side in it. -/
theorem digits_of_read_eq_error {text : List Char} {e : NumeralTooLong}
    (h : read text = .error (.numeral e)) :
    Numeral.maxDigits < e.digits ∧ HasDigits e.digits text := by
  unfold read readUpTo at h
  split at h
  · cases h
  · have hvalue : Keeps (some Numeral.maxDigits) text (readValue (some Numeral.maxDigits)
        (2 * text.length + 2) (skipBlanks text)) := (keeps_readValue _ _).afterBlanks
    cases hread : readValue (some Numeral.maxDigits) (2 * text.length + 2) (skipBlanks text) with
    | error e' =>
      rw [hread] at h
      obtain rfl : e' = .numeral e := Except.error.inj h
      obtain ⟨hdigits, hlong⟩ := hvalue.digits e hread
      exact ⟨hlong _ rfl, hdigits⟩
    | ok read =>
      -- Behind the value nothing but the rest of the text can be wrong.
      rw [hread] at h
      dsimp only [bind, Except.bind] at h
      split at h <;> cases h

end Json

end TreeWalk
