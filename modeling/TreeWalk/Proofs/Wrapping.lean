import Mathlib.Data.List.Forall2
import TreeWalk.Console.Wrap
import TreeWalk.Proofs.LiteralText

/-! # Text in lines

A text of printable ASCII characters is set in lines that show it: put together, with the blanks
that were left out at their ends, they are the text.

## Key results

* `Wrap.Shows` says that lines show a text.
* `Wrap.shows_lines` says that the lines of a text show it.
* `Wrap.justified_left` fills these lines up to their width.
-/

namespace TreeWalk

namespace Wrap

/-- A text of printable ASCII characters. -/
def Ascii (text : List Char) : Prop :=
  ∀ c ∈ text, 32 ≤ c.toNat ∧ c.toNat < 127

instance (text : List Char) : Decidable (Ascii text) :=
  List.decidableBAll _ text

/-- A part of a text in ASCII is in ASCII. -/
theorem Ascii.sublist {text part : List Char} (h : Ascii text) (hpart : part.Sublist text) :
    Ascii part :=
  fun c hc => h c (hpart.subset hc)

/-- Two texts are in ASCII if they are so together. -/
theorem ascii_append {first rest : List Char} : Ascii (first ++ rest) ↔ Ascii first ∧ Ascii rest :=
  List.forall_mem_append

/-- The only blank among the printable ASCII characters is the space. -/
theorem eq_space_of_isBlank {c : Char} (hc : 32 ≤ c.toNat ∧ c.toNat < 127)
    (hblank : isBlank c = true) : c = ' ' := by
  have hcodes : ∀ n < 127, 32 ≤ n →
      CharRanges.search Blank.blanks n 0 Blank.blanks.size (Blank.blanks.size + 1) = true →
        n = 32 := by
    decide
  exact Char.toNat_inj.mp (hcodes c.toNat hc.2 hc.1 hblank)

/-- A text in ASCII takes one cell a character. -/
theorem ofChars_eq_length {text : List Char} (h : Ascii text) :
    Cells.ofChars text = text.length := by
  induction text with
  | nil => rfl
  | cons c rest ih =>
    have hc : Cells.ofChar c = 1 := if_pos (h c List.mem_cons_self)
    rw [Cells.ofChars, hc, ih (h.sublist (List.sublist_cons_self c rest)), List.length_cons]
    omega

/-! ## Blanks at the end -/

/-- Without its last blanks a line is not longer. -/
theorem length_stripEnd_le (line : List Char) : (Blank.stripEnd line).length ≤ line.length := by
  have hle := (List.dropWhile_sublist isBlank (l := line.reverse)).length_le
  rwa [List.length_reverse, ← List.length_reverse] at hle

/-- Without its last blanks a text is not longer than its first part and the rest without them. -/
theorem length_stripEnd_append_le (first rest : List Char) :
    (Blank.stripEnd (first ++ rest)).length ≤ first.length + (Blank.stripEnd rest).length := by
  simp only [Blank.stripEnd, List.reverse_append, List.dropWhile_append, List.length_reverse]
  split
  · have hle := (List.dropWhile_sublist isBlank (l := first.reverse)).length_le
    rw [List.length_reverse] at hle
    omega
  · rw [List.length_append, List.length_reverse, Nat.add_comm]

/-- A line falls into its text and the blanks at its end. -/
theorem eq_stripEnd_append {line : List Char} (h : Ascii line) :
    line = Blank.stripEnd line ++
      List.replicate (line.reverse.takeWhile isBlank).length ' ' := by
  have hblanks : line.reverse.takeWhile isBlank =
      List.replicate (line.reverse.takeWhile isBlank).length ' ' := by
    refine List.eq_replicate_of_mem fun c hc => ?_
    have hmem := List.mem_reverse.mp ((List.takeWhile_sublist isBlank).subset hc)
    exact eq_space_of_isBlank (h c hmem) (List.mem_takeWhile_imp hc)
  have hsplit := List.takeWhile_append_dropWhile (p := isBlank) (l := line.reverse)
  rw [hblanks] at hsplit
  calc line = line.reverse.reverse := line.reverse_reverse.symm
    _ = _ := by rw [← hsplit, List.reverse_append, List.reverse_replicate, hsplit]; rfl

/-- Without the blanks at its end a line takes one cell for each character. -/
theorem ofChars_stripEnd {line : List Char} (h : Ascii line) :
    Cells.ofChars (Blank.stripEnd line) = (Blank.stripEnd line).length := by
  have hsplit := eq_stripEnd_append h
  rw [hsplit] at h
  exact ofChars_eq_length (ascii_append.mp h).1

/-- A line is as long as what is left of it and its last blanks. -/
theorem length_add_blanks {line : List Char} (h : Ascii line) :
    (Blank.stripEnd line).length + (line.reverse.takeWhile isBlank).length = line.length := by
  have hlength := congrArg List.length (eq_stripEnd_append h)
  rw [List.length_append, List.length_replicate] at hlength
  exact hlength.symm

/-- Trimming takes nothing but blanks away. -/
theorem exists_trimEnd_append {line : List Char} (h : Ascii line) (width : Nat) :
    ∃ n, line = trimEnd width line ++ List.replicate n ' ' := by
  let blanks := (line.reverse.takeWhile isBlank).length
  let n := min blanks (line.length - width)
  have hsplit : line = Blank.stripEnd line ++ List.replicate blanks ' ' := eq_stripEnd_append h
  have hlength : (Blank.stripEnd line).length + blanks = line.length := length_add_blanks h
  -- Of the last blanks as many are taken away as the line is too long, or all of them.
  have hn : n ≤ blanks := Nat.min_le_left _ _
  have hfrom : line.length - n = (Blank.stripEnd line).length + (blanks - n) := by omega
  have hdrop : line.drop (line.length - n) = List.replicate n ' ' := by
    calc line.drop (line.length - n)
        = (Blank.stripEnd line ++ List.replicate blanks ' ').drop
            ((Blank.stripEnd line).length + (blanks - n)) := by rw [← hsplit, hfrom]
      _ = (List.replicate blanks ' ').drop (blanks - n) := List.drop_length_add_append ..
      _ = List.replicate n ' ' := by rw [List.drop_replicate, Nat.sub_sub_self hn]
  exact ⟨n, by rw [← hdrop]; exact (List.take_append_drop _ line).symm⟩

/-- A line that fits without its last blanks fits once it is trimmed. -/
theorem length_trimEnd_le {line : List Char} {width : Nat} (h : Ascii line)
    (hfits : (Blank.stripEnd line).length ≤ width) : (trimEnd width line).length ≤ width := by
  have hlength := length_add_blanks h
  rw [trimEnd, List.length_take]
  omega

/-- A line that fits is not trimmed. -/
theorem trimEnd_of_length_le {line : List Char} {width : Nat} (h : line.length ≤ width) :
    trimEnd width line = line := by
  rw [trimEnd, Nat.sub_eq_zero_of_le h, Nat.min_zero, Nat.sub_zero, List.take_length]

/-! ## Words -/

/-- The words of a text make up the text, unless all of it is blank. -/
theorem flatten_words {fuel : Nat} {text : List Char} (hfuel : text.length < fuel) :
    (words fuel text).flatten = text ∨
      words fuel text = [] ∧ ∀ c ∈ text, isBlank c = true := by
  induction fuel generalizing text with
  | zero => exact absurd hfuel (Nat.not_lt_zero _)
  | succ fuel ih =>
    obtain ⟨start, htext, hstart, hnonblank⟩ := exists_eq_takeWhile_append isBlank text
    obtain ⟨after, hword, hafter, -⟩ := exists_eq_takeWhile_append (fun c => !isBlank c) start
    obtain ⟨rest, hblanks, hrest, hnext⟩ := exists_eq_takeWhile_append isBlank after
    rw [words]
    simp only [hstart, ← List.drop_drop, hafter, hrest]
    cases start with
    | nil =>
      -- There is no word behind the blanks.
      refine .inr ⟨rfl, fun c hc => ?_⟩
      rw [List.append_nil] at htext
      rw [htext] at hc
      exact List.mem_takeWhile_imp hc
    | cons c start =>
      have hc : isBlank c = false := hnonblank c rfl
      have htake : (c :: start).takeWhile (fun d => !isBlank d) =
          c :: start.takeWhile fun d => !isBlank d :=
        List.takeWhile_cons_of_pos (by rw [hc]; rfl)
      have hlength : rest.length < fuel := by
        rw [htext, hword, hblanks, htake] at hfuel
        simp only [List.length_append, List.length_cons] at hfuel
        omega
      -- What is left begins with another word, if there is anything left.
      have hflat : (words fuel rest).flatten = rest := by
        rcases ih hlength with hflat | ⟨hnil, hall⟩
        · exact hflat
        · cases rest with
          | nil => rw [hnil]; rfl
          | cons d rest =>
            have hd := hnext d rfl
            rw [hall d List.mem_cons_self] at hd
            cases hd
      refine .inl ?_
      have hne : ((c :: start).takeWhile fun d => !isBlank d).isEmpty = false := by
        rw [htake]
        rfl
      rw [hne, if_neg Bool.false_ne_true, List.flatten_cons, hflat, List.append_assoc, ← hblanks,
        List.append_assoc, ← hword, ← htext]

/-- The pieces of a text make the text. -/
theorem flatten_chop (width : Nat) (piece : List Char) (cells : Nat) (text : List Char) :
    (chop width piece cells text).flatten = piece.reverse ++ text := by
  induction text generalizing piece cells with
  | nil => simp [chop]
  | cons c rest ih =>
    rw [chop]
    split
    · rw [List.flatten_cons, ih]
      rfl
    · rw [ih, List.reverse_cons, List.append_assoc, List.singleton_append]

/-- A word is cut into pieces that fit. -/
theorem length_le_of_mem_chop {width : Nat} (hwidth : 1 ≤ width) {text : List Char}
    (htext : Ascii text) (piece : List Char) (hpiece : piece.length ≤ width) :
    ∀ part ∈ chop width piece piece.length text, part.length ≤ width := by
  induction text generalizing piece with
  | nil =>
    intro part hpart
    rw [List.mem_singleton.mp hpart, List.length_reverse]
    exact hpiece
  | cons c rest ih =>
    -- The piece grows by one cell until it is full.
    have hc : Cells.ofChar c = 1 := if_pos (htext c List.mem_cons_self)
    have hrest := htext.sublist (List.sublist_cons_self c rest)
    rw [chop, hc]
    split
    · intro part hpart
      rcases List.mem_cons.mp hpart with rfl | hpart
      · rw [List.length_reverse]
        exact hpiece
      · exact ih hrest [c] hwidth part hpart
    · next hfits => exact ih hrest (c :: piece) (by simp only [List.length_cons]; omega)

/-! ## Setting words -/

/-- The lines being set hold a text, and none is too long but for blanks at its end. -/
structure Setting.Holds (width : Nat) (s : Setting) (text : List Char) : Prop where
  joined : s.lines.flatten = text
  cells : s.cells = s.line.length
  fits : ∀ line ∈ s.lines, (Blank.stripEnd line).length ≤ width

namespace Setting

/-- The lines that are set are the finished ones and the last. -/
theorem lines_eq (s : Setting) : s.lines = s.finished.reverse ++ [s.line] := by
  rw [lines, List.reverse_cons]

/-- A piece of text that fits goes to a new line. -/
theorem Holds.onNewLine {width : Nat} {s : Setting} {text piece : List Char}
    (h : s.Holds width text) (hpiece : Ascii piece)
    (hfits : (Blank.stripEnd piece).length ≤ width) :
    (s.onNewLine piece).Holds width (text ++ piece) := by
  have hcells := ofChars_eq_length hpiece
  unfold Setting.onNewLine
  split
  · next hfresh =>
    -- Nothing has been set, so the piece goes to the first line.
    rw [isFresh, Bool.and_eq_true, List.isEmpty_iff, List.isEmpty_iff] at hfresh
    have hnil : text = [] := by
      rw [← h.joined, lines_eq, hfresh.1, hfresh.2]
      rfl
    refine ⟨?_, hcells, fun line hline => ?_⟩
    · rw [lines_eq, hfresh.1, hnil]
      simp
    · rw [lines_eq, hfresh.1] at hline
      rwa [List.mem_singleton.mp hline]
  · refine ⟨?_, hcells, fun line hline => ?_⟩
    · rw [← h.joined, lines_eq, lines_eq]
      simp
    · rw [lines_eq, List.reverse_cons, ← lines_eq, List.mem_append, List.mem_singleton] at hline
      rcases hline with hline | rfl
      · exact h.fits line hline
      · exact hfits

/-- Pieces put on new lines of their own are held after the text. -/
theorem Holds.foldl_onNewLine {width : Nat} (pieces : List (List Char)) {s : Setting}
    {text : List Char} (h : s.Holds width text) (hpieces : Ascii pieces.flatten)
    (hfits : ∀ piece ∈ pieces, piece.length ≤ width) :
    (pieces.foldl Setting.onNewLine s).Holds width (text ++ pieces.flatten) := by
  induction pieces generalizing s text with
  | nil =>
    rw [List.flatten_nil, List.append_nil]
    exact h
  | cons piece pieces ih =>
    obtain ⟨hpiece, hrest⟩ := ascii_append.mp hpieces
    have hle := Nat.le_trans (length_stripEnd_le piece) (hfits piece List.mem_cons_self)
    have hnext := ih (h.onNewLine hpiece hle) hrest
      fun other hother => hfits other (List.mem_cons_of_mem _ hother)
    rwa [List.flatten_cons, ← List.append_assoc]

/-- A word is set behind the text or goes to lines of its own. -/
theorem Holds.add {width : Nat} (hwidth : 1 ≤ width) {s : Setting} {text word : List Char}
    (h : s.Holds width text) (hword : Ascii word) :
    (s.add width .fold word).Holds width (text ++ word) := by
  unfold Setting.add
  simp only [ofChars_stripEnd hword]
  split
  · next hroom =>
    -- There is room on the line begun.
    refine ⟨?_, ?_, fun line hline => ?_⟩
    · rw [← h.joined, lines_eq, lines_eq]
      simp
    · rw [h.cells, ofChars_eq_length hword, List.length_append]
    · rw [lines_eq, List.mem_append, List.mem_singleton] at hline
      rcases hline with hline | rfl
      · exact h.fits line (by rw [lines_eq]; exact List.mem_append_left _ hline)
      · have hle := length_stripEnd_append_le s.line word
        rw [h.cells] at hroom
        exact Nat.le_trans hle hroom
  · split
    · -- The word is too long for any line, so it is cut to pieces.
      have hchopped := flatten_chop width [] 0 word
      rw [List.reverse_nil, List.nil_append] at hchopped
      have hpieces := h.foldl_onNewLine (chop width [] 0 word) (by rwa [hchopped])
        (length_le_of_mem_chop hwidth hword [] (Nat.zero_le width))
      rwa [hchopped] at hpieces
    · exact h.onNewLine hword (by omega)

/-- Words that are added are held after the text. -/
theorem Holds.foldl_add {width : Nat} (hwidth : 1 ≤ width) {words : List (List Char)}
    {s : Setting} {text : List Char} (h : s.Holds width text) (hwords : Ascii words.flatten) :
    (words.foldl (Setting.add width .fold) s).Holds width (text ++ words.flatten) := by
  induction words generalizing s text with
  | nil =>
    rw [List.flatten_nil, List.append_nil]
    exact h
  | cons word words ih =>
    obtain ⟨hword, hrest⟩ := ascii_append.mp hwords
    have hnext := ih (h.add hwidth hword) hrest
    rwa [List.flatten_cons, ← List.append_assoc]

/-- Words that all fit on the line begun stay on it. -/
theorem lines_foldl_add {width : Nat} {words : List (List Char)} {s : Setting}
    (hcells : s.cells = s.line.length) (hwords : Ascii words.flatten)
    (hfits : s.line.length + words.flatten.length ≤ width) :
    (words.foldl (Setting.add width .fold) s).lines =
      s.finished.reverse ++ [s.line ++ words.flatten] := by
  -- No word makes a new line, as all of them fit on this one.
  induction words generalizing s with
  | nil =>
    rw [List.flatten_nil, List.append_nil]
    exact s.lines_eq
  | cons word words ih =>
    obtain ⟨hword, hrest⟩ := ascii_append.mp hwords
    rw [List.flatten_cons, List.length_append] at hfits
    have hsize : Cells.ofChars (Blank.stripEnd word) ≤ word.length := by
      rw [ofChars_stripEnd hword]
      exact length_stripEnd_le word
    have hadd : s.add width .fold word =
        { s with line := s.line ++ word, cells := s.cells + Cells.ofChars word } :=
      if_pos (by omega)
    rw [List.foldl_cons, hadd, ih, List.append_assoc, List.flatten_cons]
    · rw [hcells, ofChars_eq_length hword, List.length_append]
    · exact hrest
    · rw [List.length_append]
      omega

end Setting

/-! ## Lines -/

/-- Lines of at most `width` characters show a text: the text falls into one part for each line,
    and a line leaves nothing of its part out but blanks at the end. -/
structure Shows (width : Nat) (text : List Char) (lines : List (List Char)) : Prop where
  cut : ∃ parts, parts.flatten = text ∧
    List.Forall₂ (fun line part => ∃ n, part = line ++ List.replicate n ' ') lines parts
  fits : ∀ line ∈ lines, line.length ≤ width
  /-- A text that fits on one line stands there as it is. -/
  whole : text.length ≤ width → lines = [text]
  /-- Of a text without blanks nothing is left out. -/
  joined : ' ' ∉ text → lines.flatten = text

/-- If no part has blanks, its line leaves nothing out. -/
theorem flatten_eq_of_cut {lines parts : List (List Char)} (hspace : ' ' ∉ parts.flatten)
    (h : List.Forall₂ (fun line part => ∃ n, part = line ++ List.replicate n ' ') lines parts) :
    lines.flatten = parts.flatten := by
  induction h with
  | nil => rfl
  | @cons line part lines parts hpart _ ih =>
    obtain ⟨n, hpart⟩ := hpart
    rw [List.flatten_cons, List.mem_append, not_or] at hspace
    have hn : n = 0 := by
      rw [hpart] at hspace
      exact (by simpa using hspace.1 : ' ' ∉ line ∧ n = 0).2
    rw [List.flatten_cons, List.flatten_cons, ih hspace.2, hpart, hn, List.replicate_zero,
      List.append_nil]

/-- Without a separator a text is not split. -/
theorem splitAt_of_forall {isSeparator : Char → Bool} {text : List Char}
    (h : ∀ c ∈ text, isSeparator c = false) : splitAt isSeparator text = [text] := by
  induction text with
  | nil => rfl
  | cons c rest ih =>
    obtain ⟨hc, hrest⟩ := List.forall_mem_cons.mp h
    rw [splitAt, hc, if_neg Bool.false_ne_true, ih hrest]

/-- A control character is not among the printable ones. -/
theorem beq_control {c control : Char} (hc : 32 ≤ c.toNat) (hcontrol : control.toNat < 32) :
    (c == control) = false := by
  refine beq_eq_false_iff_ne.mpr ?_
  rintro rfl
  omega

/-- All printable ASCII characters reach the console. -/
theorem printable_of_ascii {text : List Char} (h : Ascii text) : printable text = text := by
  refine List.filter_eq_self.mpr fun c hc => ?_
  have hcontrol : ∀ {control : Char}, control.toNat < 32 → (c == control) = false :=
    beq_control (h c hc).1
  rw [isDropped, hcontrol (by decide), hcontrol (by decide), hcontrol (by decide),
    hcontrol (by decide), hcontrol (by decide)]
  rfl

/-- Printable ASCII characters make up one line of text. -/
theorem loose_of_ascii {text : List Char} (h : Ascii text) (width : Nat) (overflow : Overflow) :
    loose width overflow text = line width overflow text := by
  have hsplit : splitAt (· == '\n') text = [text] :=
    splitAt_of_forall fun c hc => beq_control (h c hc).1 (by decide)
  rw [loose, printable_of_ascii h, hsplit, List.flatMap_cons, List.flatMap_nil, List.append_nil]

/-- The lines of a text before they are fitted to their width. -/
theorem exists_line_eq {width : Nat} (hwidth : 1 ≤ width) {text : List Char} (h : Ascii text) :
    ∃ parts, line width .fold text = parts.map (trimEnd width) ∧ parts.flatten = text ∧
      (∀ part ∈ parts, (Blank.stripEnd part).length ≤ width) ∧
      (text.length ≤ width → parts = [text]) := by
  have htab : text.contains '\t' = false := by
    refine Bool.eq_false_iff.mpr fun hmem => ?_
    exact absurd (h '\t' (List.contains_iff_mem.mp hmem)).1 (by decide)
  rw [line, htab]
  simp only [Bool.false_eq_true, ↓reduceIte]
  cases hwords : words (text.length + 1) text with
  | nil =>
    refine ⟨[text], rfl, List.flatten_singleton, fun part hpart => ?_, fun _ => rfl⟩
    -- A text without words is blank.
    have hblank : ∀ c ∈ text, isBlank c = true := by
      rcases flatten_words (Nat.lt_succ_self text.length) with hflat | ⟨-, hall⟩
      · rw [hwords] at hflat
        rw [← hflat]
        exact fun c hc => absurd hc List.not_mem_nil
      · exact hall
    have hstripped : Blank.stripEnd text = [] := by
      rw [Blank.stripEnd, List.reverse_eq_nil_iff, List.dropWhile_eq_nil_iff]
      exact fun c hc => hblank c (List.mem_reverse.mp hc)
    rw [List.mem_singleton.mp hpart, hstripped]
    exact Nat.zero_le width
  | cons word rest =>
    have hflat : (word :: rest).flatten = text := by
      rcases flatten_words (Nat.lt_succ_self text.length) with hflat | ⟨hnil, -⟩
      · rwa [hwords] at hflat
      · rw [hwords] at hnil
        cases hnil
    have hascii : Ascii (word :: rest).flatten := by rwa [hflat]
    have hstart : Setting.Holds width {} [] := ⟨rfl, rfl, fun line hline => by
      rw [List.mem_singleton.mp hline]
      exact Nat.zero_le width⟩
    have hset := hstart.foldl_add hwidth hascii
    rw [List.nil_append, hflat] at hset
    refine ⟨_, rfl, hset.joined, hset.fits, fun hfits => ?_⟩
    rw [Setting.lines_foldl_add rfl hascii (by rw [hflat]; simpa using hfits), hflat]
    rfl

/-- The lines of a text show it. -/
theorem shows_lines {width : Nat} (hwidth : 1 ≤ width) {text : List Char} (h : Ascii text) :
    Shows width text (lines width text) := by
  -- The line is cut into parts that fit, and each is trimmed on its own.
  obtain ⟨parts, hline, hflat, hfits, hwhole⟩ := exists_line_eq hwidth h
  have hparts : ∀ part ∈ parts, Ascii part := fun part hpart =>
    h.sublist (hflat ▸ List.sublist_flatten_of_mem hpart)
  have hshort : ∀ part ∈ parts, (trimEnd width part).length ≤ width := fun part hpart =>
    length_trimEnd_le (hparts part hpart) (hfits part hpart)
  have hlines : lines width text = parts.map (trimEnd width) := by
    rw [lines, loose_of_ascii h, hline, List.map_map]
    refine List.map_congr_left fun part hpart => ?_
    obtain ⟨n, hn⟩ := exists_trimEnd_append (hparts part hpart) width
    have htrimmed : Ascii (trimEnd width part) := by
      have hpart := hparts part hpart
      rw [hn] at hpart
      exact (ascii_append.mp hpart).1
    exact if_pos (by rw [ofChars_eq_length htrimmed]; exact hshort part hpart)
  have hcut : List.Forall₂ (fun line part => ∃ n, part = line ++ List.replicate n ' ')
      (lines width text) parts := by
    rw [hlines, List.forall₂_map_left_iff]
    exact List.forall₂_same.mpr fun part hpart => exists_trimEnd_append (hparts part hpart) width
  refine ⟨⟨parts, hflat, hcut⟩, fun line hline => ?_, fun hlength => ?_, fun hspace => ?_⟩
  · rw [hlines] at hline
    obtain ⟨part, hpart, rfl⟩ := List.mem_map.mp hline
    exact hshort part hpart
  · rw [hlines, hwhole hlength, List.map_singleton, trimEnd_of_length_le hlength]
  · rw [flatten_eq_of_cut (hflat ▸ hspace) hcut, hflat]

/-- The characters of a line that shows a text stand in the text in this order. -/
theorem Shows.sublist {width : Nat} {text : List Char} {lines : List (List Char)}
    (h : Shows width text lines) : ∀ line ∈ lines, line.Sublist text := by
  obtain ⟨parts, rfl, hcut⟩ := h.cut
  clear h
  -- The induction is on the cut: each line is a part without its last blanks.
  induction hcut with
  | nil => exact fun line hline => absurd hline List.not_mem_nil
  | @cons first part lines parts hpart _ ih =>
    obtain ⟨n, rfl⟩ := hpart
    intro line hline
    rw [List.flatten_cons]
    rcases List.mem_cons.mp hline with rfl | hline
    · exact (List.sublist_append_left line _).trans (List.sublist_append_left _ _)
    · exact (ih line hline).trans (List.sublist_append_right _ _)

/-- To the left, lines are filled up with blanks behind the text. -/
theorem justified_left (width : Nat) (text : List Char) :
    justified width .left .fold text =
      (lines width text).map fun line => line ++ filler width (Cells.ofChars line) := by
  rw [justified, lines, List.map_map]
  rfl

end Wrap

end TreeWalk
