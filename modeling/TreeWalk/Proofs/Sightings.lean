import TreeWalk.Proofs.Run
import TreeWalk.Proofs.Watching

/-! # What a step can see

A step that looks only at kinds sees of a node its kind, and of a path the fields and
positions that it goes through and the kinds of the nodes on the way.  Such a step cannot
tell two walks apart whose trees are alike in these respects, nor can whoever watches it and
sees no more than it does.

## Key results

* `Step.SeesOnlyKinds` says what it is to look only at kinds.
* `Moment.sighting` is what can be seen of a moment.
* `LooksAlike` says that two walks look the same; `looksAlike` that they do if their trees are
  alike and the step looks only at kinds.
-/

namespace TreeWalk

variable {σ σ' ε α β : Type}

/-! ## Contexts -/

/-- What can be seen of a path: the fields and positions, and the kinds of the nodes. -/
def trail (kind : Value → Option String) (path : List PathEntry) :
    List (Value × Option Int × Option String) :=
  path.map fun entry => (entry.prop, entry.index, kind entry.node)

/-- Contexts look alike if they give values the same kinds, and their paths have the same
    trail. -/
structure Context.Alike (kind : Value → Option String) (c c' : Context) : Prop where
  left : ∀ value, c.kindOf value = kind value
  right : ∀ value, c'.kindOf value = kind value
  trail_eq : trail kind c.path = trail kind c'.path

/-- The description of a path is written from its trail. -/
theorem Context.describe_eq {kind : Value → Option String} {c : Context}
    (h : ∀ value, c.kindOf value = kind value) :
    c.describe = match trail kind c.path with
      | [] => rootMark
      | root :: rest => rootName root.2.2 ++ String.join ((root :: rest).map fun mark =>
          PathEntry.describe ⟨.null, mark.1, mark.2.1⟩) := by
  unfold describe trail
  cases c.path with
  | nil => rfl
  | cons root rest =>
    simp only [List.map_cons, List.map_map, h]
    rfl

/-- Contexts that are alike are described in the same way. -/
theorem Context.Alike.describe {kind : Value → Option String} {c c' : Context}
    (h : Alike kind c c') : c.describe = c'.describe := by
  rw [describe_eq h.left, describe_eq h.right, h.trail_eq]

/-- The kind of the node above can be seen of a path. -/
theorem Context.Alike.parentKind_eq {kind : Value → Option String} {c c' : Context}
    (h : Alike kind c c') : c.parentKind = c'.parentKind := by
  have hlast : (c.path.getLast?.map fun entry => kind entry.node) =
      c'.path.getLast?.map fun entry => kind entry.node := by
    have htrail := congrArg (fun marks => marks.getLast?.map fun mark => mark.2.2) h.trail_eq
    simp only [trail, List.getLast?_map, Option.map_map] at htrail
    exact htrail
  unfold parentKind parent?
  rw [h.left, h.right]
  generalize c.path.getLast? = last at hlast ⊢
  generalize c'.path.getLast? = last' at hlast ⊢
  cases last <;> cases last' <;> simp_all

/-! ## Steps -/

/-- States of the step are alike only if they are the same; contexts and nodes if they look
    the same to a step that sees only kinds. -/
def Likeness.kinds (kind : Value → Option String) : Likeness σ σ where
  state := Eq
  context := Context.Alike kind
  node := fun value value' => kind value = kind value'

/-- A step sees only kinds if, whatever the kinds of values are, it does the same at nodes of
    the same kind in contexts that look alike. -/
def Step.SeesOnlyKinds (step : Step σ ε α) : Prop :=
  ∀ kind, Step.Agree (.kinds kind) step step

/-! ## Moments -/

/-- What can be seen of a node: its kind, and the trail and description of its path. -/
structure Sight where
  kind : Option String
  trail : List (Value × Option Int × Option String)
  location : String

/-- What can be seen of a moment. -/
inductive Sighting (ε α : Type) where
  | logged (line : String)
  | called (sight : Sight) (acc : Option α) (answer : Answer ε α)
  | resumed (sight : Sight) (children : Children α) (reply : Reply ε α)
  | closed (sight : Sight) (failure : Option ε)

/-- What can be seen of a node through an adapter. -/
def Adapter.sight (a : Adapter) (node : Value) (path : List PathEntry) : Sight where
  kind := a.kindOf node
  trail := TreeWalk.trail a.kindOf path
  location := Context.describe { path, adapter := some a }

/-- What can be seen of a moment through an adapter. -/
def Moment.sighting (a : Adapter) : Moment ε α → Sighting ε α
  | .logged line => .logged line
  | .called node path acc answer => .called (a.sight node path) acc answer
  | .resumed node path children reply => .resumed (a.sight node path) children reply
  | .closed node path failure => .closed (a.sight node path) failure

/-- States of a watched step look alike through two adapters if the step's own state is the
    same and the moments so far look alike. -/
def Likeness.sightings (a a' : Adapter) : Likeness (Watched σ ε α) (Watched σ ε α) where
  state s s' := s.own = s'.own ∧
    s.seen.map (Moment.sighting a) = s'.seen.map (Moment.sighting a')
  context := Context.Alike a.kindOf
  node value value' := a.kindOf value = a'.kindOf value'

section

/- Two adapters that give values the same kinds. -/
variable {a a' : Adapter} (hkind : ∀ value, a'.kindOf value = a.kindOf value)

include hkind

/-- The same kind at the same trail is the same sight. -/
theorem Adapter.sight_eq {node node' : Value} {path path' : List PathEntry}
    (hnode : a.kindOf node = a'.kindOf node')
    (hpath : TreeWalk.trail a.kindOf path = TreeWalk.trail a.kindOf path') :
    a.sight node path = a'.sight node' path' := by
  have hcontext : Context.Alike a.kindOf { path, adapter := some a }
      { path := path', adapter := some a' } := ⟨fun _ => rfl, hkind, hpath⟩
  have hkinds : a'.kindOf = a.kindOf := funext hkind
  unfold sight
  rw [hcontext.describe, hnode, hpath, hkinds]

/-- Contexts that look alike stay so on the way down and up, if nodes are alike only if they are
    of the same kind. -/
theorem Likeness.lawful_kinds (R : σ → σ' → Prop) {N : Value → Value → Prop}
    (hN : ∀ node node', N node node' → a.kindOf node = a'.kindOf node') :
    Lawful ⟨R, Context.Alike a.kindOf, N⟩ a a' where
  describe hpath := Context.Alike.describe hpath
  push := by
    intro path path' parent parent' slot hpath hnode
    refine ⟨hpath.left, hpath.right, ?_⟩
    -- A path shows the kinds of the parents only, and these agree.
    have htrail : trail a.kindOf path = trail a.kindOf path' := hpath.trail_eq
    have hparent : a.kindOf parent = a.kindOf parent' :=
      (hN parent parent' hnode).trans (hkind parent')
    unfold trail at htrail ⊢
    rw [List.map_append, List.map_append, htrail]
    simp only [List.map_cons, List.map_nil, Slot.entry, hparent]
  pop := by
    intro path path' hpath
    refine ⟨hpath.left, hpath.right, ?_⟩
    have htrail : trail a.kindOf path = trail a.kindOf path' := hpath.trail_eq
    unfold trail at htrail ⊢
    rw [List.map_dropLast, List.map_dropLast, htrail]

/-- To see only kinds is a lawful likeness. -/
theorem Likeness.lawful_sightings :
    (Likeness.sightings a a' : Likeness (Watched σ ε α) (Watched σ ε α)).Lawful a a' :=
  lawful_kinds hkind _ fun _ _ hnode => hnode

/-- To look alike is to see only kinds of what is alike in its kinds. -/
theorem Likeness.sightings_eq :
    (Likeness.sightings a a' : Likeness (Watched σ ε α) (Watched σ ε α)) =
      (Likeness.kinds a.kindOf).watched fun seen seen' =>
        seen.map (Moment.sighting a) = seen'.map (Moment.sighting a') := by
  unfold sightings watched kinds
  simp only [hkind]

/-- Moments that are alike in kinds look the same. -/
theorem Moment.Alike.sighting_eq {m m' : Moment ε α}
    (h : Moment.Alike (.kinds a.kindOf : Likeness σ σ) m m') : m.sighting a = m'.sighting a' := by
  have hsight : ∀ {node node' : Value} {c c' : Context}, a.kindOf node = a.kindOf node' →
      Context.Alike a.kindOf c c' → a.sight node c.path = a'.sight node' c'.path :=
    fun hnode hcontext =>
      Adapter.sight_eq hkind (hnode.trans (hkind _).symm) hcontext.trail_eq
  cases h with
  | called acc answer hnode hcontext => simp only [sighting, hsight hnode hcontext]
  | resumed children reply hnode hcontext => simp only [sighting, hsight hnode hcontext]
  | closed failure hnode hcontext => simp only [sighting, hsight hnode hcontext]

/-- Sights stay the same when both sides record moments that are alike. -/
theorem Likeness.keeps_sightings :
    (Likeness.kinds a.kindOf : Likeness σ σ).Keeps fun seen seen' : List (Moment ε α) =>
      seen.map (Moment.sighting a) = seen'.map (Moment.sighting a') := by
  intro seen seen' m m' hseen hm
  simp only [List.map_append, List.map_cons, List.map_nil, hseen, hm.sighting_eq hkind]

end

/-- A step that sees only kinds does the same when it is watched. -/
theorem Step.SeesOnlyKinds.watched {step : Step σ ε α} (h : step.SeesOnlyKinds) {a a' : Adapter}
    (hkind : ∀ value, a'.kindOf value = a.kindOf value) :
    Step.Agree (.sightings a a') step.watched step.watched := by
  rw [Likeness.sightings_eq hkind]
  exact (h a.kindOf).watched (Likeness.keeps_sightings hkind)

/-! ## Walks -/

/-- Two walks look the same: what can be seen of their moments, their outcome and the state
    that their step is left in. -/
structure LooksAlike (step : Step σ ε α) (init : Option α) (own : σ) (logger : Option (Logger σ))
    (a : Adapter) (root : Value) (a' : Adapter) (root' : Value) : Prop where
  sightings : (history root step init own (some a) logger).map (Moment.sighting a) =
    (history root' step init own (some a') logger).map (Moment.sighting a')
  outcome : (traverse root step init own (some a) logger).outcome =
    (traverse root' step init own (some a') logger).outcome
  own : (traverse root step init own (some a) logger).own =
    (traverse root' step init own (some a') logger).own

/-- A step that sees only kinds has the same sights with two adapters that agree on kinds. -/
private theorem walker_sightings {step : Step σ ε α} (hstep : step.SeesOnlyKinds)
    {a a' : Adapter} (hkind : ∀ value, a'.kindOf value = a.kindOf value) (root root' : Value)
    (logger : Option (Logger σ)) :
    Walker.Agree (.sightings a a')
      (traverseWalker root step.watched (some a) (logger.map Logger.watched))
      (traverseWalker root' step.watched (some a') (logger.map Logger.watched)) where
  lawful := Likeness.lawful_sightings hkind
  step := hstep.watched hkind
  log := by
    intro severity message s s' hs
    cases logger with
    | none => exact ⟨rfl, hs⟩
    | some logger =>
      -- The lines are the same on both sides, and have no sight but themselves.
      obtain ⟨hpath, hown, hseen⟩ := hs
      refine ⟨rfl, hpath, ?_⟩
      show (Likeness.sightings a a').state
        ((Logger.watched logger).log severity message s.own)
        ((Logger.watched logger).log severity message s'.own)
      rw [Logger.log_watched, Logger.log_watched]
      refine ⟨congrArg (logger.log severity message) hown, ?_⟩
      rw [List.map_append, List.map_append, hseen]
      simp only [List.map_map]
      rfl

/-- A step that sees only kinds makes walks that look the same of trees that are alike in
    the kinds of their nodes. -/
theorem Step.SeesOnlyKinds.looksAlike {step : Step σ ε α} (hstep : step.SeesOnlyKinds)
    {a a' : Adapter} (hkind : ∀ value, a'.kindOf value = a.kindOf value) {root root' : Value}
    (htree : Tree.Alike (fun value value' => a.kindOf value = a'.kindOf value') (a.view root)
      (a'.view root')) (init : Option α) (own : σ) (logger : Option (Logger σ)) :
    LooksAlike step init own logger a root a' root' := by
  have hwalker := walker_sightings hstep hkind root root' logger
  rw [Likeness.sightings_eq hkind] at hwalker
  have htree' : Tree.Alike (Likeness.kinds a.kindOf : Likeness σ σ).node (a.view root)
      (a'.view root') := by
    simp only [hkind] at htree
    exact htree
  obtain ⟨hsightings, houtcome, hown⟩ :=
    history_agree init hwalker ⟨fun _ => rfl, hkind, rfl⟩ rfl rfl htree'
  exact ⟨hsightings, houtcome, hown⟩

end TreeWalk
