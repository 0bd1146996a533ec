import TreeWalk.Console
import TreeWalk.Proofs.Terminals

/-! # The console keeps the promises

The console sets what is printed in lines of its width, takes the tags out of a text with markup,
and knows no emoji.  So it does what is promised of a terminal.

## Key results

* `Terminal.documented_console` says that the console keeps the promises.
-/

namespace TreeWalk

namespace Wrap

/-! ## Texts in lines -/

/-- A line is shown on at least one. -/
theorem line_ne_nil (width : Nat) (overflow : Overflow) (text : List Char) :
    line width overflow text ≠ [] := by
  unfold line
  dsimp only
  split
  · exact List.cons_ne_nil _ _
  · simp [Setting.lines]

/-- A text is split into at least one part. -/
theorem splitAt_ne_nil (isSeparator : Char → Bool) (text : List Char) :
    splitAt isSeparator text ≠ [] := by
  cases text with
  | nil => exact List.cons_ne_nil _ _
  | cons c rest =>
    unfold splitAt
    split
    · exact List.cons_ne_nil _ _
    · split <;> exact List.cons_ne_nil _ _

/-- A text takes at least one line, however short it is. -/
theorem lines_ne_nil (width : Nat) (text : List Char) : lines width text ≠ [] := by
  obtain ⟨first, rest, hsplit⟩ :=
    List.exists_cons_of_ne_nil (splitAt_ne_nil (· == '\n') (printable text))
  unfold lines loose
  rw [hsplit, List.flatMap_cons]
  simp [line_ne_nil]

/-- Printable ASCII characters are measured as one line. -/
theorem widest_of_ascii {text : List Char} (h : Ascii text) : widest text = text.length := by
  have hends : ∀ c ∈ text, endsLine c = false := by
    have hcodes : ∀ n < 127, 32 ≤ n → endsLine (Char.ofNat n) = false := by decide
    intro c hc
    have hcode := hcodes c.toNat (h c hc).2 (h c hc).1
    rwa [Char.ofNat_toNat] at hcode
  rw [widest, printable_of_ascii h, splitAt_of_forall hends, List.foldl_cons, List.foldl_nil,
    Nat.zero_max, ofChars_eq_length h]

end Wrap

namespace Terminal

variable {width : Nat}

/-! ## Markup -/

/-- What a text says is what is left when its tags are taken out. -/
theorem plain_of_reads {terminal : Terminal} {text shown : List Char}
    (h : terminal.Reads text shown) : Markup.plain text = .ok shown := by
  cases h with
  | literal h => exact Markup.plain_of_unmarked h.unmarked
  | styled hstyle hbracket hbefore htext h =>
    exact Markup.plain_styled hstyle.2 hstyle.1 hbracket hbefore h.unmarked.of_append htext

/-- A text with markup is set in lines without it. -/
theorem marked_console {text shown : List Char} (h : Markup.plain text = .ok shown) :
    (console width).marked (String.ofList text) = .ok (ofLines (Wrap.lines width shown)) := by
  show (do
    let shown ← (Markup.plain (String.ofList text).toList).mapError Markup.Fault.error
    return ofLines (Wrap.lines width shown)) = _
  rw [String.toList_ofList, h]
  rfl

/-- Markup is lost from a text. -/
theorem length_filter_marked (hwidth : 1 ≤ width) {text : List Char} (hascii : Wrap.Ascii text)
    (hspace : ' ' ∉ text) (hmarked : ¬Markup.Unmarked text) {out : String}
    (h : (console width).marked (String.ofList text) = .ok out) :
    (out.toList.filter (· != '\n')).length < text.length := by
  cases hplain : Markup.plain text with
  -- A mistake in the markup gives no text.
  | error fault =>
    have herror : (console width).marked (String.ofList text) = .error fault.error := by
      show (do
        let shown ← (Markup.plain (String.ofList text).toList).mapError Markup.Fault.error
        return ofLines (Wrap.lines width shown)) = _
      rw [String.toList_ofList, hplain]
      rfl
    rw [herror] at h
    cases h
  | ok shown =>
    rw [marked_console hplain] at h
    obtain rfl := Except.ok.inj h
    -- What is left when the tags are taken off is a part of the text, and not all of it.
    have hpart := Markup.sublist_of_plain hplain
    have hshown := hascii.sublist hpart
    rw [filter_ofLines_of_shows (Wrap.shows_lines hwidth hshown) hshown
      fun hmem => hspace (hpart.subset hmem)]
    exact Nat.lt_of_le_of_ne hpart.length_le fun heq =>
      hmarked (Markup.unmarked_of_plain hplain heq)

/-! ## Tables -/

/-- Texts without markup lose nothing. -/
theorem mapM_plain {texts : List (List Char)} (h : ∀ text ∈ texts, Markup.Unmarked text) :
    texts.mapM Markup.plain = .ok texts := by
  induction texts with
  | nil => rfl
  | cons text texts ih =>
    obtain ⟨htext, htexts⟩ := List.forall_mem_cons.mp h
    rw [List.mapM_cons, Markup.plain_of_unmarked htext, ih htexts]
    rfl

/-- Nothing is taken off the cells of a column without markup. -/
theorem plain_column {column : Column}
    (h : ∀ text ∈ column.heading :: column.cells, Markup.Unmarked text) :
    column.plain = .ok column := by
  obtain ⟨hheading, hcells⟩ := List.forall_mem_cons.mp h
  rw [Column.plain, Markup.plain_of_unmarked hheading, mapM_plain hcells]
  rfl

/-- A table without markup loses nothing. -/
theorem plain_table {title : List Char} {first second : Column} (htitle : Markup.Unmarked title)
    (hfirst : ∀ text ∈ first.heading :: first.cells, Markup.Unmarked text)
    (hsecond : ∀ text ∈ second.heading :: second.cells, Markup.Unmarked text) :
    Table.plain ⟨title, [first, second]⟩ = .ok ⟨title, [first, second]⟩ := by
  rw [Table.plain, Markup.plain_of_unmarked htitle]
  simp only [List.mapM_cons, List.mapM_nil, plain_column hfirst, plain_column hsecond]
  rfl

/-! ## Outlines -/

/-- A list that goes with two lists one after the other falls into what goes with each. -/
theorem exists_append_of_forall₂ {R : α → β → Prop} {first rest : List α} {whole : List β}
    (h : List.Forall₂ R (first ++ rest) whole) :
    ∃ start remainder, whole = start ++ remainder ∧ List.Forall₂ R first start ∧
      List.Forall₂ R rest remainder := by
  induction first generalizing whole with
  | nil => exact ⟨[], whole, rfl, .nil, h⟩
  | cons a first ih =>
    cases h with
    | cons ha hrest =>
      obtain ⟨start, remainder, rfl, hfirst, hremainder⟩ := ih hrest
      exact ⟨_ :: start, remainder, rfl, .cons ha hfirst, hremainder⟩

section

variable {terminal : Terminal}

mutual

/-- Without its markup an outline has the labels that are said. -/
theorem exists_plain_eq : ∀ (outline : Outline) {depth : Nat} {shown : List (Nat × List Char)},
    List.Forall₂ (fun label entry => label.1 = entry.1 ∧ terminal.Reads label.2 entry.2)
      (outline.labels depth) shown →
    ∃ plain, outline.plain = .ok plain ∧ plain.labels depth = shown
  | .label text below, depth, shown, h => by
    rw [Outline.labels] at h
    cases h with
    | @cons _ entry _ others hfirst hbelow =>
      obtain ⟨rfl, hreads⟩ := hfirst
      obtain ⟨plain, hplain, hlabels⟩ := exists_plainAll_eq below hbelow
      refine ⟨.label entry.2 plain, ?_, ?_⟩
      · rw [Outline.plain, plain_of_reads hreads, hplain]
        rfl
      · rw [Outline.labels, hlabels]

/-- The same of outlines side by side. -/
theorem exists_plainAll_eq : ∀ (outlines : List Outline) {depth : Nat}
    {shown : List (Nat × List Char)},
    List.Forall₂ (fun label entry => label.1 = entry.1 ∧ terminal.Reads label.2 entry.2)
      (Outline.labelsBelow depth outlines) shown →
    ∃ plain, Outline.plainAll outlines = .ok plain ∧ Outline.labelsBelow depth plain = shown
  | [], depth, shown, h => by
    rw [Outline.labelsBelow] at h
    cases h
    exact ⟨[], rfl, rfl⟩
  | outline :: others, depth, shown, h => by
    rw [Outline.labelsBelow] at h
    obtain ⟨start, remainder, rfl, hfirst, hrest⟩ := exists_append_of_forall₂ h
    obtain ⟨first, hplain, hlabels⟩ := exists_plain_eq outline hfirst
    obtain ⟨rest, hplain', hlabels'⟩ := exists_plainAll_eq others hrest
    refine ⟨first :: rest, ?_, ?_⟩
    · rw [Outline.plainAll, hplain, hplain']
      rfl
    · rw [Outline.labelsBelow, hlabels, hlabels']

end

end

/-! ## The console -/

/-- What is printed as it stands ends with the end of a line. -/
theorem exists_literal_console (width : Nat) (text : String) :
    ∃ chars, (console width).literal text = String.ofList (chars ++ ['\n']) := by
  obtain ⟨first, last, hlines⟩ :=
    (List.eq_nil_or_concat' _).resolve_left (Wrap.lines_ne_nil width text.toList)
  refine ⟨first.flatMap (· ++ ['\n']) ++ last, ?_⟩
  show ofLines (Wrap.lines width text.toList) = _
  rw [hlines, ofLines, List.flatMap_append, List.flatMap_singleton, List.append_assoc]

/-- A table of two columns without markup shows the cells of the first one. -/
theorem exists_table_console {title : List Char} {first second : Column}
    (htitle : (console width).Literal title) (hjustify : first.justify = .left)
    (hoverflow : first.overflow = .fold)
    (hcolumns : ∀ column ∈ [first, second], 4 ≤ column.heading.length ∧
      ∀ text ∈ column.heading :: column.cells, (console width).Literal text)
    (hwidth : 16 ≤ width) :
    ∃ lines, (console width).table ⟨title, [first, second]⟩ = .ok (ofLines lines) ∧
      ∀ cell ∈ first.cells, Table.Holds lines cell := by
  obtain ⟨⟨hlength₁, hfirst⟩, ⟨hlength₂, hsecond⟩, -⟩ :=
    (List.forall_mem_cons.trans (and_congr_right' List.forall_mem_cons)).mp hcolumns
  have hplain := plain_table htitle.unmarked (fun text htext => (hfirst text htext).unmarked)
    fun text htext => (hsecond text htext).unmarked
  -- The headings take four cells each, so that both columns have room.
  have hheading₁ := Wrap.widest_of_ascii (hfirst first.heading List.mem_cons_self).ascii
  have hheading₂ := Wrap.widest_of_ascii (hsecond second.heading List.mem_cons_self).ascii
  refine ⟨Table.lines width ⟨title, [first, second]⟩, ?_, fun cell hcell => ?_⟩
  · show (do
      let shown ← (Table.plain ⟨title, [first, second]⟩).mapError Markup.Fault.error
      return ofLines (shown.lines width)) = _
    rw [hplain]
    rfl
  · exact Table.exists_lines_eq rfl hjustify hoverflow (by omega) (by omega) hwidth hcell
      (hfirst cell (List.mem_cons_of_mem _ hcell)).ascii

/-- An outline shows what its labels say. -/
theorem exists_outline_console {outline : Outline} {shown : List (Nat × List Char)}
    (h : List.Forall₂ (fun label entry => label.1 = entry.1 ∧
      (console width).Reads label.2 entry.2) (outline.labels 0) shown) :
    ∃ blocks, (console width).outline outline = .ok (ofLines blocks.flatten) ∧
      List.Forall₂ (Outline.Shows width) shown blocks := by
  obtain ⟨plain, hplain, rfl⟩ := exists_plain_eq outline h
  -- All that is shown is printable, since what is read is literal.
  have hascii : ∀ entry ∈ plain.labels 0, Wrap.Ascii entry.2 := by
    intro entry hentry
    obtain ⟨i, hi, rfl⟩ := List.getElem_of_mem hentry
    obtain ⟨hlength, hlabels⟩ := List.forall₂_iff_get.mp h
    exact (hlabels i (by omega) hi).2.literal_shown.ascii
  obtain ⟨blocks, hlines, hshows⟩ := Outline.exists_lines_eq width hascii
  refine ⟨blocks, ?_, hshows⟩
  show (do
    let shown ← outline.plain.mapError Markup.Fault.error
    return ofLines (shown.lines width)) = _
  rw [hplain, ← hlines]
  rfl

/-- The console keeps the promises, if its lines have room for a character. -/
theorem documented_console (hwidth : 1 ≤ width) : (console width).Documented where
  emoji_nonblank := by
    intro name hemoji
    cases hemoji
  literal_ends := exists_literal_console width
  marked_shows text shown h :=
    ⟨_, Wrap.shows_lines hwidth h.literal_shown.ascii, marked_console (plain_of_reads h)⟩
  marked_loses _ hascii hspace _ hmarked _ h := length_filter_marked hwidth hascii hspace hmarked h
  table_holds _ _ _ htitle hjustify hoverflow hcolumns hroom :=
    exists_table_console htitle hjustify hoverflow hcolumns hroom
  outline_shows _ _ h := exists_outline_console h

end Terminal

end TreeWalk
