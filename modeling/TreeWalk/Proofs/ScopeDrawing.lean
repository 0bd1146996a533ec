import Mathlib.Logic.Function.Iterate
import TreeWalk.Report

/-! # Drawing scopes

The outline of scopes is drawn by a loop.  Each turn takes the scope that came last and draws the
scopes directly inside it, in their order, so that of these the last one is taken next.  While the
outline is only partly drawn, parts of it that belong together are drawn far apart in time.

What the drawing comes to does not change meanwhile: `Sketch.completed` puts what lies inside the
pending scopes below their addresses, and a turn only does a part of that.

## Key results

* `ScopeTree.labelled` is the tree of scopes, each replaced by its label.
* `Sketch.completed_turn` says that a turn keeps to what the drawing comes to.
* `draw_eq_labelled` says that this is what is drawn.
* `draw_scopes` says so with the number of turns, the texts and what is printed.
-/

namespace TreeWalk

/-! ## Changing an outline at an address -/

namespace Outline

variable {f g : Outline → Outline}

/-- To change a part of a part is to change the part in it. -/
theorem modifyAt_append (f : Outline → Outline) (address more : List Nat) (outline : Outline) :
    modifyAt f (address ++ more) outline = modifyAt (modifyAt f more) address outline := by
  induction address generalizing outline with
  | nil => rfl
  | cons i address ih =>
    obtain ⟨text, below⟩ := outline
    rw [List.cons_append, modifyAt, modifyAt, funext ih]

/-- Two changes at one address are one change. -/
theorem modifyAt_modifyAt (f g : Outline → Outline) (address : List Nat) (outline : Outline) :
    modifyAt f address (modifyAt g address outline) = modifyAt (f ∘ g) address outline := by
  induction address generalizing outline with
  | nil => rfl
  | cons i address ih =>
    obtain ⟨text, below⟩ := outline
    rw [modifyAt, modifyAt, modifyAt, List.modify_modify_eq, funext (f := _ ∘ _) ih]

/-- A change is told by what it makes of the part that it is made to. -/
theorem modifyAt_congr {address : List Nat} {outline : Outline}
    (h : ∀ part, outline.part? address = some part → f part = g part) :
    modifyAt f address outline = modifyAt g address outline := by
  induction address generalizing outline with
  | nil => exact h outline rfl
  | cons i address ih =>
    obtain ⟨text, below⟩ := outline
    rw [modifyAt, modifyAt]
    refine congrArg (label text) (List.ext_getElem? fun j => ?_)
    rw [List.getElem?_modify, List.getElem?_modify]
    -- Only the label on the way to the part matters; the others stay as they are.
    by_cases hj : i = j
    · subst hj
      cases hpart : below[i]? with
      | none => rfl
      | some part =>
        have hbelow : modifyAt f address part = modifyAt g address part := by
          apply ih
          intro part' hpart'
          apply h
          rw [part?, hpart]
          exact hpart'
        simp [hbelow]
    · simp [hj]

/-- Nothing is put below a label if there is nothing. -/
theorem append_nil (outline : Outline) : outline.append [] = outline := by
  obtain ⟨text, below⟩ := outline
  rw [append, List.append_nil]

/-- Adding nothing at an address changes nothing. -/
theorem modifyAt_append_nil (address : List Nat) (outline : Outline) :
    modifyAt (·.append []) address outline = outline := by
  induction address generalizing outline with
  | nil => exact outline.append_nil
  | cons i address ih =>
    obtain ⟨text, below⟩ := outline
    rw [modifyAt, funext (g := id) ih, List.modify_id]

/-- A label is drawn below others.  If more is added behind it and then something below it, this is
    as if all of it were added at once. -/
theorem modifyAt_add (text : List Char) (inner more : List Outline) (address : List Nat)
    (outline : Outline) :
    let (drawn, branch) := outline.add address text
    modifyAt (·.append inner) branch (modifyAt (·.append more) address drawn) =
      modifyAt (·.append (.label text inner :: more)) address outline := by
  dsimp only [add]
  rw [modifyAt_append, modifyAt_modifyAt, modifyAt_modifyAt]
  apply modifyAt_congr
  intro part hpart
  obtain ⟨title, below⟩ := part
  -- The new label stands where the others have ended.
  rw [hpart, Option.elim_some, parts]
  show label title (List.modify (below ++ [leaf text] ++ more) below.length _) = _
  rw [List.append_assoc, List.modify_eq_take_drop, List.take_left, List.drop_left]
  rfl

end Outline

/-! ## Scopes as labels -/

namespace ScopeTree

variable (kindOf : Value → Option String)

mutual

/-- A tree of scopes with each scope replaced by its label. -/
def labelled : ScopeTree → Outline
  | .scope values children => .label (Report.scopeText kindOf values) (labelledAll children)

/-- The same for trees one after the other. -/
def labelledAll : List ScopeTree → List Outline
  | [] => []
  | tree :: rest => labelled tree :: labelledAll rest

end

/-- A tree is labelled with the text of its scope and its labelled children. -/
theorem labelled_eq (tree : ScopeTree) :
    tree.labelled kindOf =
      .label (Report.scopeText kindOf tree.declarations) (labelledAll kindOf tree.children) := by
  obtain ⟨values, children⟩ := tree
  rw [labelled, declarations, ScopeTree.children]

/-- A tree has at least one scope. -/
theorem size_pos (tree : ScopeTree) : 0 < tree.size := by
  obtain ⟨values, children⟩ := tree
  rw [size]
  omega

end ScopeTree

namespace Report

variable (kindOf : Value → Option String)

namespace Sketch

/-! ## What a drawing comes to -/

/-- What a drawing comes to: inside each pending scope there will be all the scopes that lie
    there. -/
def completed (sketch : Sketch) : Outline :=
  sketch.pending.foldl (fun drawing (scope, address) =>
    drawing.modifyAt (·.append (ScopeTree.labelledAll kindOf scope.children)) address) sketch.drawing

/-- To draw scopes at an address, with their insides pending, comes to the same as drawing them with
    all that lies inside them. -/
theorem completed_foldl_attach (address : List Nat) (scopes : List ScopeTree) (drawing : Outline)
    (pending : List (ScopeTree × List Nat)) :
    completed kindOf (scopes.foldl (attach kindOf address) ⟨drawing, pending⟩) =
      completed kindOf
        ⟨drawing.modifyAt (·.append (ScopeTree.labelledAll kindOf scopes)) address, pending⟩ := by
  -- The induction is on the scopes to come.  Each of them is pending before those that are drawn
  -- after it, so its inside is added when they are there.
  induction scopes generalizing drawing pending with
  | nil => rw [List.foldl_nil, ScopeTree.labelledAll, Outline.modifyAt_append_nil]
  | cons scope rest ih =>
    have hdrawn := Outline.modifyAt_add (scopeText kindOf scope.declarations)
      (ScopeTree.labelledAll kindOf scope.children) (ScopeTree.labelledAll kindOf rest) address
      drawing
    rw [List.foldl_cons, attach]
    cases hadd : drawing.add address (scopeText kindOf scope.declarations) with
    | mk drawn branch =>
      rw [hadd] at hdrawn
      rw [ih, completed, completed, List.foldl_cons, ScopeTree.labelledAll, ScopeTree.labelled_eq]
      exact congrArg (List.foldl _ · pending) hdrawn

/-- A turn does a part of what the drawing comes to. -/
theorem completed_turn (sketch : Sketch) :
    (sketch.turn kindOf).completed kindOf = sketch.completed kindOf := by
  obtain ⟨drawing, pending⟩ := sketch
  cases pending with
  | nil => rfl
  | cons first pending =>
    obtain ⟨scope, address⟩ := first
    rw [turn, completed_foldl_attach]
    rfl

/-- The first sketch comes to the whole tree. -/
theorem completed_start (root : ScopeTree) :
    (start kindOf root).completed kindOf = root.labelled kindOf := by
  rw [ScopeTree.labelled_eq]
  rfl

/-- What a drawing comes to is what is drawn in the end. -/
theorem finish_eq_completed (sketch : Sketch) :
    sketch.finish kindOf = sketch.completed kindOf := by
  fun_induction finish kindOf sketch with
  | case1 sketch hdone =>
    rw [completed, List.isEmpty_iff.mp hdone, List.foldl_nil]
  | case2 sketch hpending ih => rw [ih, completed_turn]

/-! ## How long it takes -/

/-- Nothing remains when nothing is pending. -/
theorem remaining_eq_zero_iff (sketch : Sketch) : sketch.remaining = 0 ↔ sketch.pending = [] := by
  obtain ⟨drawing, pending⟩ := sketch
  cases pending with
  | nil => simp [remaining, ScopeTree.sizeAll]
  | cons first pending =>
    have hpos := first.1.size_pos
    simp only [remaining, List.map_cons, ScopeTree.sizeAll, reduceCtorEq, iff_false]
    omega

/-- Every turn leaves one scope less, as long as there are any. -/
theorem remaining_iterate (n : Nat) (sketch : Sketch) :
    ((turn kindOf)^[n] sketch).remaining = sketch.remaining - n := by
  -- A turn draws one scope if one is pending, and otherwise changes nothing.
  induction n generalizing sketch with
  | zero => rfl
  | succ n ih =>
    rw [Function.iterate_succ_apply, ih]
    by_cases hpending : sketch.pending = []
    · have hsame : sketch.turn kindOf = sketch := by
        obtain ⟨drawing, pending⟩ := sketch
        obtain rfl : pending = [] := hpending
        rfl
      have hnone := sketch.remaining_eq_zero_iff.mpr hpending
      rw [hsame]
      omega
    · have hturn := remaining_turn kindOf hpending
      omega

/-- After some turns nothing is pending, if no more scopes remained. -/
theorem pending_iterate_eq_nil_iff (n : Nat) (sketch : Sketch) :
    ((turn kindOf)^[n] sketch).pending = [] ↔ sketch.remaining ≤ n := by
  rw [← remaining_eq_zero_iff, remaining_iterate]
  omega

/-- Turns do not change what a sketch comes to. -/
theorem completed_iterate (n : Nat) (sketch : Sketch) :
    ((turn kindOf)^[n] sketch).completed kindOf = sketch.completed kindOf := by
  induction n generalizing sketch with
  | zero => rfl
  | succ n ih => rw [Function.iterate_succ_apply, ih, completed_turn]

/-- At first all scopes of the tree remain. -/
theorem remaining_start (root : ScopeTree) : (start kindOf root).remaining = root.size := by
  simp [start, remaining, ScopeTree.sizeAll]

end Sketch

/-! ## The outline -/

/-- What is drawn is the tree of scopes, each replaced by its label. -/
theorem draw_eq_labelled (root : ScopeTree) : draw kindOf root = root.labelled kindOf := by
  rw [draw, Sketch.finish_eq_completed, Sketch.completed_start]

/-- A label shows the kinds of what is declared, and a question mark for what has none. -/
theorem scopeText_eq (values : List Value) :
    scopeText kindOf values = ("scope: " ++
      if values.isEmpty then "[dim]no declarations[/dim]"
      else ", ".intercalate (values.map fun value => match kindOf value with
        | none | some "" => "?"
        | some kind => kind)).toList := by
  -- A value without a kind and one with an empty kind are shown in the same way.
  have hshown : ∀ value, (if ((kindOf value).getD "").isEmpty then "?" else (kindOf value).getD "") =
      match kindOf value with
      | none | some "" => "?"
      | some kind => kind := by
    intro value
    cases hkind : kindOf value with
    | none => rfl
    | some kind =>
      by_cases hempty : kind = ""
      · rw [hempty]
        rfl
      · simp [hempty]
  unfold scopeText declarations
  rw [funext hshown]

/-- The loop that draws scopes ends after one turn for each of them and not earlier.  Then it has
    drawn the tree of scopes, each replaced by its label: with the labels of the scopes inside it
    below its own, in their order.  A label shows the kinds of what is declared in the scope.  This
    outline is what the terminal is made to print. -/
theorem draw_scopes (root : ScopeTree) :
    let turned := fun n => (Sketch.turn kindOf)^[n] (Sketch.start kindOf root)
    (∀ n, (turned n).pending = [] ↔ root.size ≤ n) ∧
      (turned root.size).drawing = draw kindOf root ∧
      draw kindOf root = root.labelled kindOf ∧
      (∀ values, scopeText kindOf values = ("scope: " ++
        if values.isEmpty then "[dim]no declarations[/dim]"
        else ", ".intercalate (values.map fun value => match kindOf value with
          | none | some "" => "?"
          | some kind => kind)).toList) ∧
      ∀ (terminal : Terminal) (adapter : Adapter),
        scopes terminal adapter root = terminal.outline (root.labelled adapter.kindOf) := by
  intro turned
  have hpending : ∀ n, (turned n).pending = [] ↔ root.size ≤ n := by
    intro n
    rw [Sketch.pending_iterate_eq_nil_iff, Sketch.remaining_start]
  refine ⟨hpending, ?_, draw_eq_labelled kindOf root, scopeText_eq kindOf, ?_⟩
  · -- When nothing is pending any more, the drawing is all that it comes to.
    have hdone := (hpending root.size).mpr (Nat.le_refl _)
    have hcompleted := Sketch.completed_iterate kindOf root.size (Sketch.start kindOf root)
    rw [Sketch.completed_start, ← draw_eq_labelled, Sketch.completed, hdone] at hcompleted
    exact hcompleted
  · intro terminal adapter
    rw [scopes, draw_eq_labelled]

/-- Two scopes side by side, each with a scope inside it: the second one is drawn to its end before
    the inside of the first. -/
def twoBranches : ScopeTree :=
  .scope [] [.scope [.str "f"] [.scope [.str "x"] []], .scope [.str "g"] [.scope [.null] []]]

/-- The kind of a text is the text. -/
def kindOfText : Value → Option String
  | .str s => some s
  | _ => none

/-- The inside of each branch is drawn below it, in five turns. -/
theorem draw_scopes_twoBranches :
    ((Sketch.turn kindOfText)^[4] (Sketch.start kindOfText twoBranches)).pending ≠ [] ∧
      draw kindOfText twoBranches = .label "scope: [dim]no declarations[/dim]".toList
        [.label "scope: f".toList [.leaf "scope: x".toList],
         .label "scope: g".toList [.leaf "scope: ?".toList]] := by
  obtain ⟨hpending, -, hdrawn, -⟩ := draw_scopes kindOfText twoBranches
  refine ⟨?_, hdrawn.trans ?_⟩
  · rw [ne_eq, hpending]
    decide
  · rfl

end Report

end TreeWalk
