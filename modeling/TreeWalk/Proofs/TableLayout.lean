import TreeWalk.Console.Table
import TreeWalk.Proofs.Wrapping

/-! # Cells of a table

Two columns of a table that is narrowed to the console keep room for text, and what is left of
the table when it is cut off at the edge of the console holds the whole of the first column.

## Key results

* `Table.exists_widths_eq` bounds the width of the first of two columns.
* `Table.exists_lines_eq` finds a cell of the first column among the lines of the table.
-/

namespace TreeWalk

namespace Table

/-! ## Widths -/

/-- The greatest width is not less than the one to start with. -/
private theorem le_foldl_max (f : List Char → Nat) (cells : List (List Char)) (start : Nat) :
    start ≤ cells.foldl (fun width cell => max width (f cell)) start := by
  induction cells generalizing start with
  | nil => exact Nat.le_refl start
  | cons cell cells ih => exact Nat.le_trans (Nat.le_max_left _ _) (ih _)

/-- The greatest width does not exceed a bound that no single one exceeds. -/
private theorem foldl_max_le {f : List Char → Nat} {bound : Nat} (hf : ∀ cell, f cell ≤ bound)
    {cells : List (List Char)} {start : Nat} (hstart : start ≤ bound) :
    cells.foldl (fun width cell => max width (f cell)) start ≤ bound := by
  induction cells generalizing start with
  | nil => exact hstart
  | cons cell cells ih => exact ih (Nat.max_le.mpr ⟨hstart, hf cell⟩)

/-- No column is measured wider than the limit. -/
theorem measure_le (limit : Nat) (column : Column) : measure limit column ≤ limit :=
  foldl_max_le (fun _ => Nat.min_le_left _ _) (Nat.zero_le limit)

/-- A column has room for its heading, as far as it may. -/
theorem le_measure (limit : Nat) (column : Column) :
    min limit (Wrap.widest column.heading + padding) ≤ measure limit column := by
  rw [measure, List.foldl_cons, Nat.zero_max]
  exact le_foldl_max _ _ _

/-- Half of a number, rounded down or up. -/
private theorem roundDiv_two (num : Nat) :
    num / 2 ≤ roundDiv num 2 ∧ roundDiv num 2 ≤ (num + 1) / 2 := by
  simp only [roundDiv]
  split
  · next hup =>
    -- Only an odd number is rounded up.
    have hodd : num % 2 = 1 := by
      by_contra heven
      have hzero : num % 2 = 0 := by omega
      rw [hzero] at hup
      simp at hup
    omega
  · omega

/-- A number divided by one is itself. -/
private theorem roundDiv_one (num : Nat) : roundDiv num 1 = num := by
  simp [roundDiv, Nat.mod_one]

/-- What is taken from two columns of one width. -/
private theorem reduce_same (a limit excess : Nat) :
    reduce a limit excess 2 [a, a] =
      [a - min limit (roundDiv excess 2),
        a - min limit (excess - min limit (roundDiv excess 2))] := by
  simp [reduce, roundDiv_one]

/-- The first of two columns is made narrower if it is the widest. -/
private theorem reduce_first (a b limit excess : Nat) :
    reduce a limit excess 1 [a, b] = [a - min limit excess, b] := by
  simp [reduce, roundDiv_one]

/-- The second of two columns is made narrower if it is the widest. -/
private theorem reduce_second {a b : Nat} (h : a < b) (limit excess : Nat) :
    reduce b limit excess 1 [a, b] = [a, b - min limit excess] := by
  simp [reduce, roundDiv_one, h.ne]

/-- Two columns are narrowed to no less than the width of a heading. -/
theorem exists_collapse_eq {room : Nat} (hroom : 13 ≤ room) (fuel : Nat) {a b : Nat}
    (ha : 6 ≤ a ∧ a ≤ room) (hb : 6 ≤ b ∧ b ≤ room) :
    ∃ a' b', collapse room fuel [a, b] = [a', b'] ∧ 6 ≤ a' ∧ a' ≤ room := by
  induction fuel generalizing a b with
  | zero => exact ⟨a, b, rfl, ha⟩
  | succ fuel ih =>
    have htotal : total [a, b] = a + b := by simp [total]
    have hgreatest : greatest [a, b] = max a b := by simp [greatest]
    rw [collapse, htotal, hgreatest]
    simp only
    split
    · exact ⟨a, b, rfl, ha⟩
    · -- The wider column gives way, down to the width of the other one at most.
      rcases Nat.lt_trichotomy a b with hlt | rfl | hlt
      · have hcount : [a, b].count b = 1 := by simp [hlt.ne]
        have hnext : greatest ([a, b].filter (· != b)) = a := by simp [greatest, hlt.ne]
        rw [Nat.max_eq_right hlt.le, hcount, hnext, reduce_second hlt]
        exact ih ha (by omega)
      · have hcount : [a, a].count a = 2 := by simp
        have hnext : greatest ([a, a].filter (· != a)) = 0 := by simp [greatest]
        -- Columns of one width share what is too much, and half of 13 leaves 6.
        rw [Nat.max_self, hcount, hnext, reduce_same]
        have hhalf := roundDiv_two (a + a - room)
        exact ih (by omega) (by omega)
      · have hcount : [a, b].count a = 1 := by simp [hlt.ne]
        have hnext : greatest ([a, b].filter (· != a)) = b := by simp [greatest, hlt.ne]
        rw [Nat.max_eq_left hlt.le, hcount, hnext, reduce_first]
        exact ih (by omega) hb

/-- Of two columns with headings the first has room for its own, and ends within the console. -/
theorem exists_widths_eq {width : Nat} (hwidth : 16 ≤ width) {c₁ c₂ : Column}
    (h₁ : 4 ≤ Wrap.widest c₁.heading) (h₂ : 4 ≤ Wrap.widest c₂.heading) :
    ∃ w₁ w₂, widths width [c₁, c₂] = [w₁, w₂] ∧ 6 ≤ w₁ ∧ w₁ + frame 2 ≤ width := by
  let room := width - frame 2
  let wanted := [max 1 (measure room c₁), max 1 (measure room c₂)]
  have hframe : frame 2 = 3 := rfl
  have hpadding : padding = 2 := rfl
  have hwanted : ∀ {c : Column}, 4 ≤ Wrap.widest c.heading →
      6 ≤ max 1 (measure room c) ∧ max 1 (measure room c) ≤ room := by
    intro c hc
    have hle := measure_le room c
    have hge := le_measure room c
    omega
  have hwidths : widths width [c₁, c₂] = if total wanted ≤ room then wanted else
      ([c₁, c₂].zip (collapse room (total wanted + 1) wanted)).map fun entry =>
        measure entry.2 entry.1 := rfl
  rw [hwidths]
  -- The columns are measured again once they have been narrowed.
  split
  · have hbounds := hwanted h₁
    exact ⟨_, _, rfl, hbounds.1, by omega⟩
  · obtain ⟨a, b, hcollapse, ha⟩ := exists_collapse_eq (by omega : 13 ≤ room)
      (total wanted + 1) (hwanted h₁) (hwanted h₂)
    have hle := measure_le a c₁
    have hge := le_measure a c₁
    rw [hcollapse]
    exact ⟨measure a c₁, measure b c₂, rfl, by omega, by omega⟩

/-! ## Rows -/

/-- Each of the rows holds one line of a text in its first cell. -/
def FirstCells (rows lines : List (List Char)) : Prop :=
  List.Forall₂ (fun row line => ∃ n rest,
    row = ['│', ' '] ++ line ++ List.replicate n ' ' ++ [' ', '│'] ++ rest) rows lines

/-- Somewhere in a table there are rows that show a text in their first cells. -/
def Holds (table : List (List Char)) (text : List Char) : Prop :=
  ∃ before rows after room shown, table = before ++ rows ++ after ∧ 4 ≤ room ∧
    Wrap.Shows room text shown ∧ FirstCells rows shown

/-- The greatest number is not less than the first. -/
theorem le_greatest_cons (n : Nat) (ns : List Nat) : n ≤ greatest (n :: ns) := by
  rw [greatest, List.foldl_cons, Nat.zero_max]
  induction ns generalizing n with
  | nil => exact Nat.le_refl n
  | cons m ns ih => exact Nat.le_trans (Nat.le_max_left n m) (ih (max n m))

/-- A line that begins with characters of one cell each keeps them when it is cut off behind
    them. -/
theorem crop_append {first rest : List Char} {width : Nat}
    (hfirst : ∀ c ∈ first, Cells.ofChar c = 1) (hlength : first.length ≤ width) :
    Wrap.crop width (first ++ rest) = first ++ Wrap.crop (width - first.length) rest := by
  induction first generalizing width with
  | nil => rfl
  | cons c first ih =>
    obtain ⟨hc, hfirst⟩ := List.forall_mem_cons.mp hfirst
    rw [List.length_cons] at hlength
    rw [List.cons_append, Wrap.crop, hc, if_pos (by omega), ih hfirst (by omega), List.length_cons,
      Nat.sub_sub, Nat.add_comm 1]
    rfl

/-- The lines of a cell are those of its text, filled up to the width of the column. -/
theorem cellLines_eq {width : Nat} (hwidth : padding < width) {column : Column}
    (hjustify : column.justify = .left) (hoverflow : column.overflow = .fold)
    (cell : List Char) :
    cellLines width column cell = (Wrap.lines (width - padding) cell).map fun line =>
      ' ' :: (line ++ Wrap.filler (width - padding) (Cells.ofChars line)) ++ [' '] := by
  rw [cellLines, if_neg (by omega), hjustify, hoverflow, Wrap.justified_left, List.map_map]
  rfl

/-- A row of two cells begins with the first one between edges. -/
theorem enclose_pair (edge : Char) (first second : List Char) :
    enclose ⟨edge, edge, edge⟩ [first, second] =
      (edge :: (first ++ [edge])) ++ (second ++ [edge]) := by
  simp [enclose, List.intercalate]

/-- The lines of a row with two cells. -/
theorem rowLines_pair (edges : Edges) (w₁ w₂ : Nat) (first second : List (List Char)) :
    rowLines edges [(w₁, first), (w₂, second)] =
      (List.range (greatest [first.length, second.length])).map fun number =>
        enclose edges [partOf number w₁ first, partOf number w₂ second] :=
  rfl

/-- A line of a text that fills the first cell of a row stays when the row is cut off. -/
theorem exists_crop_eq {width room : Nat} (hwidth : room + padding + 2 ≤ width) {line : List Char}
    (hline : Wrap.Ascii line) (hfits : line.length ≤ room) (second : List Char) :
    ∃ n rest, Wrap.crop width (enclose ⟨'│', '│', '│'⟩
        [' ' :: (line ++ Wrap.filler room (Cells.ofChars line)) ++ [' '], second]) =
      ['│', ' '] ++ line ++ List.replicate n ' ' ++ [' ', '│'] ++ rest := by
  -- Everything up to the second edge takes one cell a character, so a crop that is wide enough
  -- spares it.
  have hpadding : padding = 2 := rfl
  let blanks := List.replicate (room - line.length) ' '
  let first := ['│', ' '] ++ line ++ blanks ++ [' ', '│']
  have hfirst : '│' :: (' ' :: (line ++ Wrap.filler room (Cells.ofChars line)) ++ [' '] ++ ['│']) =
      first := by
    simp [first, blanks, Wrap.filler, Wrap.ofChars_eq_length hline]
  have hedge : Cells.ofChar '│' = 1 := by decide +kernel
  have hspace : Cells.ofChar ' ' = 1 := rfl
  have hcells : ∀ c ∈ first, Cells.ofChar c = 1 := by
    intro c hc
    simp only [first, blanks, List.mem_append, List.mem_cons, List.not_mem_nil, or_false] at hc
    rcases hc with (((rfl | rfl) | hc) | hc) | rfl | rfl
    · exact hedge
    · exact hspace
    · exact if_pos (hline c hc)
    · rw [List.eq_of_mem_replicate hc]
      exact hspace
    · exact hspace
    · exact hedge
  have hlength : first.length ≤ width := by
    simp only [first, blanks, List.length_append, List.length_cons, List.length_nil,
      List.length_replicate]
    omega
  rw [enclose_pair, hfirst, crop_append hcells hlength]
  exact ⟨_, _, rfl⟩

/-- A text in the first cell of a row stands in the lines that the row begins with. -/
theorem exists_rows {width w₁ : Nat} (w₂ : Nat) (hw : padding < w₁)
    (hwidth : w₁ + frame 2 ≤ width)
    {c₁ : Column} (hjustify : c₁.justify = .left) (hoverflow : c₁.overflow = .fold)
    {cell : List Char} (hcell : Wrap.Ascii cell) (second : List (List Char)) :
    ∃ rows after,
      (rowLines ⟨'│', '│', '│'⟩ [(w₁, cellLines w₁ c₁ cell), (w₂, second)]).map (Wrap.crop width) =
        rows ++ after ∧ FirstCells rows (Wrap.lines (w₁ - padding) cell) := by
  have hpadding : padding = 2 := rfl
  have hframe : frame 2 = 3 := rfl
  -- The row is as high as its highest cell, so the lines of the first cell come first and there may
  -- be more.
  let room := w₁ - padding
  let lines := Wrap.lines room cell
  have hshows : Wrap.Shows room cell lines := Wrap.shows_lines (by omega) hcell
  let framed := fun line => ' ' :: (line ++ Wrap.filler room (Cells.ofChars line)) ++ [' ']
  have hfirst : cellLines w₁ c₁ cell = lines.map framed := cellLines_eq hw hjustify hoverflow cell
  let rowAt := fun number => Wrap.crop width (enclose ⟨'│', '│', '│'⟩
    [partOf number w₁ (lines.map framed), partOf number w₂ second])
  have hheight : lines.length ≤ greatest [(lines.map framed).length, second.length] := by
    rw [List.length_map]
    exact le_greatest_cons _ _
  obtain ⟨more, hmore⟩ := Nat.exists_eq_add_of_le hheight
  have hrows : (rowLines ⟨'│', '│', '│'⟩ [(w₁, cellLines w₁ c₁ cell), (w₂, second)]).map
      (Wrap.crop width) = (List.range (lines.length + more)).map rowAt := by
    rw [← hmore, hfirst, rowLines_pair, List.map_map, Function.comp_def]
  refine ⟨(List.range lines.length).map rowAt,
    ((List.range more).map (lines.length + ·)).map rowAt, ?_, ?_⟩
  · rw [hrows, List.range_add, List.map_append]
  · refine List.forall₂_iff_get.mpr ⟨by simp [lines, room], fun i hi hi' => ?_⟩
    have hline : lines[i] ∈ lines := List.getElem_mem hi'
    have hpart : partOf i w₁ (lines.map framed) = framed lines[i] := by
      rw [partOf, List.getD_eq_getElem?_getD, List.getElem?_map, List.getElem?_eq_getElem hi']
      rfl
    simp only [List.get_eq_getElem, List.getElem_map, List.getElem_range, rowAt, hpart]
    exact exists_crop_eq (by omega) (hcell.sublist (hshows.sublist _ hline))
      (hshows.fits _ hline) _

/-! ## Tables -/

/-- The lines of the row with a number, cut off at the edge of the console. -/
def rowAt (width : Nat) (ws : List Nat) (columns : List Column) (number : Nat) :
    List (List Char) :=
  (rowLines ⟨'│', '│', '│'⟩ (row ws columns fun column => column.cells.getD number [])).map
    (Wrap.crop width)

/-- The lines of a table hold those of its rows. -/
theorem exists_lines_eq_flatMap {table : Table} {columns : List Column} {width : Nat}
    {ws : List Nat} (htable : table.columns = columns) (hwidths : widths width columns = ws) :
    ∃ above below, lines width table =
      above ++ (List.range (height columns)).flatMap (rowAt width ws columns) ++ below := by
  have hmap : ∀ (top body bottom : List (List Char)) (rule : List Char),
      (top ++ rule :: body ++ bottom).map (Wrap.crop width) =
        (top ++ [rule]).map (Wrap.crop width) ++ body.map (Wrap.crop width) ++
          bottom.map (Wrap.crop width) := by
    intro top body bottom rule
    simp
  have hlines : lines width table = (linesOf ws table).map (Wrap.crop width) := by
    rw [lines, htable, hwidths]
  rw [linesOf, hmap, List.map_flatMap, htable] at hlines
  exact ⟨_, _, hlines⟩

/-- Among the lines of a table there are rows in which a text of the first column stands. -/
theorem exists_lines_eq {table : Table} {c₁ c₂ : Column} (htable : table.columns = [c₁, c₂])
    (hjustify : c₁.justify = .left) (hoverflow : c₁.overflow = .fold)
    (h₁ : 4 ≤ Wrap.widest c₁.heading) (h₂ : 4 ≤ Wrap.widest c₂.heading) {width : Nat}
    (hwidth : 16 ≤ width) {cell : List Char} (hmem : cell ∈ c₁.cells) (hcell : Wrap.Ascii cell) :
    Holds (lines width table) cell := by
  have hpadding : padding = 2 := rfl
  obtain ⟨w₁, w₂, hwidths, hleast, hends⟩ := exists_widths_eq hwidth h₁ h₂
  -- The row of the cell stands among the rows, and its lines start with those of the cell.
  obtain ⟨k, hk, rfl⟩ := List.getElem_of_mem hmem
  have hget : c₁.cells.getD k [] = c₁.cells[k] := by
    rw [List.getD_eq_getElem?_getD, List.getElem?_eq_getElem hk]
    rfl
  obtain ⟨rows, after, hrows, hfirst⟩ := exists_rows w₂ (by omega) hends hjustify hoverflow
    hcell (cellLines w₂ c₂ (c₂.cells.getD k []))
  have hrowAt : rowAt width [w₁, w₂] [c₁, c₂] k = rows ++ after := by
    rw [← hrows, ← hget]
    rfl
  have hheight : k < height [c₁, c₂] := Nat.lt_of_lt_of_le hk (le_greatest_cons _ _)
  obtain ⟨earlier, later, hrange⟩ := List.append_of_mem (List.mem_range.mpr hheight)
  obtain ⟨above, below, hlines⟩ := exists_lines_eq_flatMap htable hwidths
  refine ⟨above ++ earlier.flatMap (rowAt width [w₁, w₂] [c₁, c₂]), rows,
    after ++ later.flatMap (rowAt width [w₁, w₂] [c₁, c₂]) ++ below, w₁ - padding, _, ?_, by omega,
    Wrap.shows_lines (by omega) hcell, hfirst⟩
  rw [hlines, hrange, List.flatMap_append, List.flatMap_cons, hrowAt]
  simp only [List.append_assoc]

end Table

end TreeWalk
