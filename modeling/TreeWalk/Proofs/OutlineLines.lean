import TreeWalk.Console.Outline
import TreeWalk.Proofs.Wrapping

/-! # Lines of an outline

The lines of a label show it behind guides, as long as the guides leave room on the console, and
the labels come in pre-order.

## Key results

* `Outline.Shows` says when lines show a label.
* `Outline.exists_lines_eq` says that the lines of an outline fall into blocks that show its
  labels.
-/

namespace TreeWalk

namespace Outline

mutual

/-- The labels of an outline in pre-order, each with its depth. -/
def labels (depth : Nat) : Outline → List (Nat × List Char)
  | .label text below => (depth, text) :: labelsBelow (depth + 1) below

/-- The labels of outlines one after the other. -/
def labelsBelow (depth : Nat) : List Outline → List (Nat × List Char)
  | [] => []
  | outline :: others => labels depth outline ++ labelsBelow depth others

end

/-- The width of one level of guides. -/
def guideWidth : Nat := 4

/-- Lines show a label at its depth, behind guides of four characters for every level, as long as
    the guides leave room for it. -/
def Shows (width : Nat) (entry : Nat × List Char) (block : List (List Char)) : Prop :=
  guideWidth * entry.1 < width → ∃ shown,
    Wrap.Shows (width - guideWidth * entry.1) entry.2 shown ∧
      List.Forall₂ (fun line text => ∃ guides : List Char,
        guides.length = guideWidth * entry.1 ∧ line = guides ++ text) block shown

/-- The guides take four characters. -/
theorem length_branch (isLast : Bool) : (branch isLast).length = guideWidth := by
  cases isLast <;> decide

/-- A trunk is as wide as a guide. -/
theorem length_trunk (isLast : Bool) : (trunk isLast).length = guideWidth := by
  cases isLast <;> decide

/-- The lines of one label show it. -/
theorem shows_labelLines {width depth : Nat} {first rest text : List Char}
    (hfirst : first.length = guideWidth * depth) (hrest : rest.length = guideWidth * depth)
    (htext : Wrap.Ascii text) : Shows width (depth, text) (labelLines width first rest text) := by
  intro hroom
  have hroom : guideWidth * depth < width := hroom
  have hsome : ¬ width ≤ first.length := by omega
  have hshows := Wrap.shows_lines (by omega : 1 ≤ width - guideWidth * depth) htext
  unfold labelLines
  rw [if_neg hsome, hfirst]
  cases hlines : Wrap.lines (width - guideWidth * depth) text with
  | nil => exact ⟨[], hlines ▸ hshows, .nil⟩
  | cons line others =>
    -- Only the first line has the branch that leads to the label.
    refine ⟨line :: others, hlines ▸ hshows, .cons ⟨first, hfirst, rfl⟩ ?_⟩
    rw [List.forall₂_map_left_iff]
    exact List.forall₂_same.mpr fun other _ => ⟨rest, hrest, rfl⟩

mutual

/-- The lines of an outline fall into blocks that show its labels. -/
theorem exists_linesFrom_eq (width : Nat) : ∀ (outline : Outline) {depth : Nat}
    {first rest : List Char}, first.length = guideWidth * depth →
    rest.length = guideWidth * depth → (∀ entry ∈ outline.labels depth, Wrap.Ascii entry.2) →
      ∃ blocks, linesFrom width first rest outline = blocks.flatten ∧
        List.Forall₂ (Shows width) (outline.labels depth) blocks
  | .label text below, depth, first, rest, hfirst, hrest, hlabels => by
    rw [labels, List.forall_mem_cons] at hlabels
    obtain ⟨blocks, hlines, hshows⟩ := exists_linesBelow_eq width below hrest hlabels.2
    refine ⟨labelLines width first rest text :: blocks, ?_, ?_⟩
    · rw [linesFrom, hlines, List.flatten_cons]
    · rw [labels]
      exact .cons (shows_labelLines hfirst hrest hlabels.1) hshows

/-- The lines below a label show the labels there, one block each. -/
theorem exists_linesBelow_eq (width : Nat) : ∀ (outlines : List Outline) {depth : Nat}
    {guides : List Char}, guides.length = guideWidth * depth →
    (∀ entry ∈ labelsBelow (depth + 1) outlines, Wrap.Ascii entry.2) →
      ∃ blocks, linesBelow width guides outlines = blocks.flatten ∧
        List.Forall₂ (Shows width) (labelsBelow (depth + 1) outlines) blocks
  | [], depth, guides, hguides, hlabels => by
    rw [linesBelow, labelsBelow]
    exact ⟨[], rfl, .nil⟩
  | outline :: others, depth, guides, hguides, hlabels => by
    rw [labelsBelow, List.forall_mem_append] at hlabels
    have hbranch : (guides ++ branch others.isEmpty).length = guideWidth * (depth + 1) := by
      rw [List.length_append, hguides, length_branch, Nat.mul_succ]
    have htrunk : (guides ++ trunk others.isEmpty).length = guideWidth * (depth + 1) := by
      rw [List.length_append, hguides, length_trunk, Nat.mul_succ]
    obtain ⟨blocks, hlines, hshows⟩ := exists_linesFrom_eq width outline hbranch htrunk hlabels.1
    obtain ⟨blocks', hlines', hshows'⟩ := exists_linesBelow_eq width others hguides hlabels.2
    refine ⟨blocks ++ blocks', ?_, ?_⟩
    · rw [linesBelow, hlines, hlines', List.flatten_append]
    · rw [labelsBelow]
      exact List.rel_append hshows hshows'

end

/-- The lines on the console show the labels of an outline. -/
theorem exists_lines_eq (width : Nat) {outline : Outline}
    (h : ∀ entry ∈ outline.labels 0, Wrap.Ascii entry.2) :
    ∃ blocks, lines width outline = blocks.flatten ∧
      List.Forall₂ (Shows width) (outline.labels 0) blocks :=
  exists_linesFrom_eq width outline rfl rfl h

end Outline

end TreeWalk
