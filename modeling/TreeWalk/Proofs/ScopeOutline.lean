import TreeWalk.Proofs.ScopeDrawing
import TreeWalk.Proofs.Terminals

/-! # Scopes in outline

The outline of scopes has one label for each scope, in pre-order, and a label tells the kinds of
what is declared in its scope.

## Key results

* `Report.infix_label` finds the kinds of what is declared in the labels.
* `Report.labels_labelled` gives the labels of the outline of scopes.
* `Report.exists_scopes_eq` says that a terminal shows them.
-/

namespace TreeWalk

/-! ## Outlines of scopes -/

namespace ScopeTree

mutual

/-- The scopes in pre-order, each with its depth and what is declared in it. -/
def levels (depth : Nat) : ScopeTree → List (Nat × List Value)
  | .scope values children => (depth, values) :: levelsAll (depth + 1) children

/-- The scopes of trees one after the other. -/
def levelsAll (depth : Nat) : List ScopeTree → List (Nat × List Value)
  | [] => []
  | tree :: rest => levels depth tree ++ levelsAll depth rest

end

end ScopeTree

namespace Report

/-- Each of the texts that a separator joins stands in what they are joined to. -/
theorem infix_intercalate {texts : List (List Char)} {text : List Char} (h : text ∈ texts)
    (separator : List Char) : text <:+: separator.intercalate texts := by
  obtain ⟨i, hi, rfl⟩ := List.mem_iff_getElem.mp h
  have hplace : texts[i] ∈ texts.intersperse separator := by
    rw [List.getElem_eq_getElem_intersperse_two_mul]
    exact List.getElem_mem _
  exact List.infix_of_mem_flatten hplace

/-- The label of a scope as it is printed. -/
def label (adapter : Adapter) (values : List Value) : List Char :=
  if values.isEmpty then "scope: no declarations".toList
  else scopeText adapter.kindOf values

/-- The kind of what is declared in a scope stands in the label of the scope. -/
theorem infix_label {adapter : Adapter} {values : List Value} {value : Value} {kind : String}
    (hmem : value ∈ values) (hkind : adapter.kindOf value = some kind) :
    kind.toList <:+: label adapter values := by
  have hsome : values.isEmpty = false := List.isEmpty_eq_false_iff.mpr (List.ne_nil_of_mem hmem)
  -- The declarations are the kinds with commas between them.
  have hdeclared : kind.toList <:+: (declarations adapter.kindOf values).toList := by
    unfold declarations
    simp only [hsome, Bool.false_eq_true, ↓reduceIte, String.toList_intercalate, List.map_map]
    by_cases hempty : kind = ""
    · -- A kind without characters stands everywhere.
      rw [hempty]
      exact List.nil_infix
    · exact infix_intercalate (List.mem_map.mpr ⟨value, hmem, by simp [hkind, hempty]⟩) _
  unfold label scopeText
  simp only [hsome, Bool.false_eq_true, ↓reduceIte, String.toList_append]
  exact hdeclared.trans (List.suffix_append _ _).isInfix

variable {terminal : Terminal}

/-- The text for a scope says its label; that of a scope without declarations does so by a part
    with tags around it. -/
theorem reads_scopeText (hdocumented : terminal.Documented) {adapter : Adapter}
    {values : List Value}
    (h : values.isEmpty = false → terminal.Literal (label adapter values)) :
    terminal.Reads (scopeText adapter.kindOf values) (label adapter values) := by
  cases values with
  | nil =>
    -- Only a scope without declarations is drawn with markup, which is not seen.
    have hnone : terminal.Literal "no declarations".toList :=
      Terminal.literal_of_not_mem (by decide) (by decide) (by decide)
    have hlabel : terminal.Literal ("scope: ".toList ++ "no declarations".toList) := by
      have hstart : terminal.Literal ("scope".toList ++ ':' :: ' ' :: "no declarations".toList) :=
        hnone.of_start hdocumented (by decide) (by decide) (by decide)
      exact hstart
    have hdrawn : scopeText adapter.kindOf [] = "scope: ".toList ++ '[' :: "dim".toList ++
        ']' :: "no declarations".toList ++ '[' :: '/' :: "dim".toList ++ [']'] := by
      show ("scope: " ++ "[dim]no declarations[/dim]").toList = _
      decide +kernel
    have hsays : label adapter [] = "scope: ".toList ++ "no declarations".toList := by
      show "scope: no declarations".toList = _
      decide +kernel
    rw [hdrawn, hsays]
    exact .styled (by decide) (by decide) (by decide) (by decide) hlabel
  | cons value rest => exact .literal (h rfl)

mutual

/-- The labels of the outline of scopes are the texts for the scopes in pre-order. -/
theorem labels_labelled (kindOf : Value → Option String) (depth : Nat) : ∀ tree : ScopeTree,
    (tree.labelled kindOf).labels depth =
      (tree.levels depth).map fun entry => (entry.1, scopeText kindOf entry.2)
  | .scope values children => by
    rw [ScopeTree.labelled, Outline.labels, ScopeTree.levels, List.map_cons,
      labelsBelow_labelledAll kindOf (depth + 1) children]

/-- So it is with trees side by side. -/
theorem labelsBelow_labelledAll (kindOf : Value → Option String) (depth : Nat) :
    ∀ trees : List ScopeTree, Outline.labelsBelow depth (ScopeTree.labelledAll kindOf trees) =
      (ScopeTree.levelsAll depth trees).map fun entry => (entry.1, scopeText kindOf entry.2)
  | [] => by rw [ScopeTree.labelledAll, Outline.labelsBelow, ScopeTree.levelsAll, List.map_nil]
  | tree :: rest => by
    rw [ScopeTree.labelledAll, Outline.labelsBelow, ScopeTree.levelsAll, List.map_append,
      labels_labelled kindOf depth tree, labelsBelow_labelledAll kindOf depth rest]

end

/-- The report on scopes shows the labels of the scopes, if they are literal. -/
theorem exists_scopes_eq (hdocumented : terminal.Documented) (adapter : Adapter)
    (tree : ScopeTree)
    (h : ∀ entry ∈ tree.levels 0, entry.2.isEmpty = false →
      terminal.Literal (label adapter entry.2)) :
    ∃ blocks, scopes terminal adapter tree = .ok (Terminal.ofLines blocks.flatten) ∧
      List.Forall₂ (fun entry block => Outline.Shows terminal.width
        (entry.1, label adapter entry.2) block) (tree.levels 0) blocks := by
  have hreads : List.Forall₂ (fun drawn entry => drawn.1 = entry.1 ∧
        terminal.Reads drawn.2 entry.2) ((draw adapter.kindOf tree).labels 0)
      ((tree.levels 0).map fun entry => (entry.1, label adapter entry.2)) := by
    rw [draw_eq_labelled, labels_labelled, List.forall₂_map_left_iff, List.forall₂_map_right_iff]
    exact List.forall₂_same.mpr fun entry hentry =>
      ⟨rfl, reads_scopeText hdocumented (h entry hentry)⟩
  obtain ⟨blocks, hscopes, hshows⟩ := hdocumented.outline_shows _ _ hreads
  rw [List.forall₂_map_left_iff] at hshows
  exact ⟨blocks, hscopes, hshows⟩

end Report

end TreeWalk
