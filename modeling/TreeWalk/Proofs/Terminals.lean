import TreeWalk.Proofs.OutlineLines
import TreeWalk.Proofs.TableLayout

/-! # Terminals with documented behaviour

A terminal is given by the texts that come out, and its package says in words what these are: a
text without markup is printed as it stands, tags around a text are taken off, and what is wider
than a line goes on in the next.  These promises are the fields of `Terminal.Documented`.  They
are made for printable ASCII characters only, and only where no name between colons stands for an
emoji.

## Key results

* `Terminal.Literal` is a text that comes out as it is, and `Terminal.Reads` says what comes out of
  a text with markup that is styled from a place on.
* `Terminal.Documented` is what is promised of a terminal.
-/

namespace TreeWalk

namespace Terminal

/-! ## Lines -/

/-- Lines are printed one after the other. -/
theorem ofLines_append (lines more : List (List Char)) :
    ofLines (lines ++ more) = ofLines lines ++ ofLines more := by
  unfold ofLines
  rw [List.flatMap_append, String.ofList_append]

/-- Lines that hold no line ends are found again between them. -/
theorem filter_ofLines {lines : List (List Char)} (h : ∀ line ∈ lines, '\n' ∉ line) :
    (ofLines lines).toList.filter (· != '\n') = lines.flatten := by
  unfold ofLines
  rw [String.toList_ofList]
  induction lines with
  | nil => rfl
  | cons line lines ih =>
    obtain ⟨hline, hlines⟩ := List.forall_mem_cons.mp h
    -- No line has an end of line in it, so that all ends of lines are those put behind the lines.
    have hkept : line.filter (· != '\n') = line := by
      refine List.filter_eq_self.mpr fun c hc => ?_
      have hne : c ≠ '\n' := fun heq => hline (heq ▸ hc)
      simpa using hne
    rw [List.flatMap_cons, List.filter_append, List.filter_append, hkept, ih hlines,
      List.flatten_cons]
    simp

/-- The lines that show a text without blanks tell its characters. -/
theorem filter_ofLines_of_shows {width : Nat} {text : List Char} {lines : List (List Char)}
    (h : Wrap.Shows width text lines) (hascii : Wrap.Ascii text) (hspace : ' ' ∉ text) :
    (ofLines lines).toList.filter (· != '\n') = text := by
  rw [filter_ofLines, h.joined hspace]
  intro line hline hmem
  exact absurd (hascii '\n' ((h.sublist line hline).subset hmem)).1 (by decide)

variable (terminal : Terminal)

/-! ## Texts -/

/-- No name between two colons of a text stands for an emoji. -/
def EmojiFree (text : List Char) : Prop :=
  ∀ before name after, text = before ++ ':' :: (name ++ ':' :: after) →
    terminal.isEmoji name = false

/-- A text that is printed as it stands: printable ASCII characters without markup and emoji. -/
structure Literal (text : List Char) : Prop where
  ascii : Wrap.Ascii text
  unmarked : Markup.Unmarked text
  emojiFree : terminal.EmojiFree text

/-- Small letters, which can name a style. -/
def IsStyle (style : List Char) : Prop :=
  style ≠ [] ∧ ∀ c ∈ style, 'a' ≤ c ∧ c ≤ 'z'

instance (style : List Char) : Decidable (IsStyle style) :=
  have : Decidable (∀ c ∈ style, 'a' ≤ c ∧ c ≤ 'z') := List.decidableBAll _ style
  inferInstanceAs (Decidable (style ≠ [] ∧ ∀ c ∈ style, 'a' ≤ c ∧ c ≤ 'z'))

/-- What a text with markup says: itself, if it is literal, and the text without the tags around
    its end, if these are the only ones. -/
inductive Reads : List Char → List Char → Prop
  | literal {text : List Char} (h : terminal.Literal text) : Reads text text
  | styled {before style text : List Char} (hstyle : IsStyle style) (hbracket : '[' ∉ before)
      (hbefore : before.getLast? ≠ some '\\') (htext : text.getLast? ≠ some '\\')
      (h : terminal.Literal (before ++ text)) :
      Reads (before ++ '[' :: style ++ ']' :: text ++ '[' :: '/' :: style ++ [']']) (before ++ text)

/-! ## Promises -/

/-- What is promised of a terminal. -/
structure Documented : Prop where
  /-- There are no blanks in the name of an emoji. -/
  emoji_nonblank : ∀ name, terminal.isEmoji name = true → ' ' ∉ name
  /-- What is printed ends with the end of a line. -/
  literal_ends : ∀ text, ∃ chars, terminal.literal text = String.ofList (chars ++ ['\n'])
  /-- Lines show what a text with markup says. -/
  marked_shows : ∀ text shown, terminal.Reads text shown →
    ∃ lines, Wrap.Shows terminal.width shown lines ∧
      terminal.marked (String.ofList text) = .ok (ofLines lines)
  /-- If there is markup in a text without blanks, some of its characters are lost. -/
  marked_loses : ∀ text, Wrap.Ascii text → ' ' ∉ text → terminal.EmojiFree text →
    ¬Markup.Unmarked text → ∀ out, terminal.marked (String.ofList text) = .ok out →
      (out.toList.filter (· != '\n')).length < text.length
  /-- A table of two columns shows the cells of the first one, if what is too wide in it goes on
      in the next line. -/
  table_holds : ∀ title first second, terminal.Literal title →
    first.justify = .left → first.overflow = .fold →
    (∀ column ∈ [first, second], 4 ≤ column.heading.length ∧
      ∀ text ∈ column.heading :: column.cells, terminal.Literal text) →
    16 ≤ terminal.width →
      ∃ lines, terminal.table ⟨title, [first, second]⟩ = .ok (ofLines lines) ∧
        ∀ cell ∈ first.cells, Table.Holds lines cell
  /-- An outline shows what its labels say. -/
  outline_shows : ∀ outline shown,
    List.Forall₂ (fun label entry => label.1 = entry.1 ∧ terminal.Reads label.2 entry.2)
      (outline.labels 0) shown →
    ∃ blocks, terminal.outline outline = .ok (ofLines blocks.flatten) ∧
      List.Forall₂ (Outline.Shows terminal.width) shown blocks

/-! ## Literal texts -/

variable {terminal}

/-- A text without colons names no emoji. -/
theorem emojiFree_of_not_mem {text : List Char} (h : ':' ∉ text) : terminal.EmojiFree text := by
  rintro before name after rfl
  simp at h

/-- Printable characters without brackets and colons are printed as they stand. -/
theorem literal_of_not_mem {text : List Char} (hascii : Wrap.Ascii text) (hbracket : '[' ∉ text)
    (hcolon : ':' ∉ text) : terminal.Literal text :=
  ⟨hascii, Markup.unmarked_of_not_mem hbracket, emojiFree_of_not_mem hcolon⟩

/-- A colon of a text is the first one or lies behind the blank that follows the first one. -/
theorem eq_or_exists_of_colon {start text : List Char} (hcolon : ':' ∉ start)
    {before after : List Char} (h : start ++ ':' :: ' ' :: text = before ++ ':' :: after) :
    after = ' ' :: text ∨ ∃ middle, text = middle ++ ':' :: after := by
  -- The colon is the one behind the start, or lies in the text.
  induction start generalizing before with
  | nil =>
    rcases before with _ | ⟨c, _ | ⟨d, before⟩⟩
    · exact .inl (List.cons.inj h).2.symm
    · cases h
    · exact .inr ⟨before, (List.cons.inj (List.cons.inj h).2).2⟩
  | cons c start ih =>
    cases before with
    | nil => exact absurd (by rw [(List.cons.inj h).1]; exact List.mem_cons_self) hcolon
    | cons d before =>
      exact ih (fun hmem => hcolon (List.mem_cons_of_mem c hmem)) (List.cons.inj h).2

/-- A colon with a blank behind it begins no name of an emoji. -/
theorem EmojiFree.of_start (hdocumented : terminal.Documented) {start text : List Char}
    (hcolon : ':' ∉ start) (h : terminal.EmojiFree text) :
    terminal.EmojiFree (start ++ ':' :: ' ' :: text) := by
  intro before name after heq
  rcases eq_or_exists_of_colon hcolon heq with hname | ⟨middle, htext⟩
  · cases name with
    | nil => cases hname
    | cons c name =>
      -- The name would begin with the blank.
      obtain rfl : c = ' ' := (List.cons.inj hname).1
      refine Bool.eq_false_iff.mpr fun hemoji => ?_
      exact hdocumented.emoji_nonblank _ hemoji List.mem_cons_self
  · exact h middle name after htext

/-- What a text with markup says is literal. -/
theorem Reads.literal_shown {text shown : List Char} (h : terminal.Reads text shown) :
    terminal.Literal shown := by
  cases h with
  | literal h => exact h
  | styled _ _ _ _ h => exact h

/-- A literal text is so behind a colon and a blank. -/
theorem Literal.of_start (hdocumented : terminal.Documented) {start text : List Char}
    (hstart : Wrap.Ascii start) (hbracket : '[' ∉ start) (hcolon : ':' ∉ start)
    (h : terminal.Literal text) : terminal.Literal (start ++ ':' :: ' ' :: text) := by
  refine ⟨?_, ?_, h.emojiFree.of_start hdocumented hcolon⟩
  · rw [Wrap.ascii_append]
    refine ⟨hstart, ?_⟩
    show Wrap.Ascii ([':', ' '] ++ text)
    rw [Wrap.ascii_append]
    exact ⟨by decide, h.ascii⟩
  · -- The start has no bracket, and does not end with a backslash.
    have hsplit : start ++ ':' :: ' ' :: text = (start ++ [':', ' ']) ++ text := by simp
    rw [hsplit]
    refine Markup.Unmarked.of_start ?_ ?_ h.unmarked
    · rw [List.mem_append, not_or]
      exact ⟨hbracket, by decide⟩
    · rw [List.getLast?_append]
      exact (by decide : some ' ' ≠ some '\\')

end Terminal

end TreeWalk
