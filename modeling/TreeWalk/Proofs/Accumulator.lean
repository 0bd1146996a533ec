import TreeWalk.Proofs.Schedule

/-! # The accumulator

A step is handed the value of the first phase of an ancestor: of the nearest one
that has such a value, or the initial value of the walk if none has.  The walk only
ever passes a value from a node to its children, so the law about all ancestors has
to be read off the calls that were made on the way down.

## Key results

* `nearest` is the value of the nearest of some calls, `Lineage` says that they are
  the calls of the ancestors.
* `Lineage.unique` says that the path determines these calls.
* `history_handedDown` is the law for every call of a walk.
-/

namespace TreeWalk

variable {σ ε α : Type}

/-- The value of the first phase of a call, if it has one. -/
def Moment.handed : Moment ε α → Option α
  | .called _ _ _ answer => answer.handed
  | _ => none

/-- The value of the last of some calls that has one, and `init` if none has. -/
def nearest (calls : List (Moment ε α)) (init : Option α) : Option α :=
  (calls.reverse.findSome? Moment.handed).or init

/-- The calls of the nodes on a path, outermost first: the call for an entry was
    made at its node, with the path as far as that entry. -/
inductive Lineage : List (Moment ε α) → List PathEntry → Prop where
  | root : Lineage [] []
  | child {calls path} (entry : PathEntry) (acc : Option α) (answer : Answer ε α)
      (h : Lineage calls path) :
      Lineage (calls ++ [.called entry.node path acc answer]) (path ++ [entry])

/-- Among moments in which no turn is taken twice, a path has one lineage. -/
theorem Lineage.unique {moments : List (Moment ε α)} (hnodup : (taken moments).Nodup)
    {calls calls' : List (Moment ε α)} {path : List PathEntry} (h : Lineage calls path)
    (h' : Lineage calls' path) (hcalls : calls ⊆ moments) (hcalls' : calls' ⊆ moments) :
    calls = calls' := by
  -- From the end of the path backwards: the last calls agree, and so do the others.
  induction h generalizing calls' with
  | root =>
    generalize hpath : ([] : List PathEntry) = path' at h'
    cases h' with
    | root => rfl
    | child entry acc answer h' => simp at hpath
  | @child calls path entry acc answer h ih =>
    generalize hpath : path ++ [entry] = path' at h'
    cases h' with
    | root => simp at hpath
    | @child calls' _ entry' acc' answer' h' =>
      obtain ⟨rfl, hentry⟩ := List.append_inj' hpath rfl
      obtain rfl := List.singleton_inj.mp hentry
      rw [List.append_subset] at hcalls hcalls'
      have hlast := hcalls.2 List.mem_cons_self
      have hlast' := hcalls'.2 List.mem_cons_self
      rw [ih h' hcalls.1 hcalls'.1, eq_of_turn?_eq hnodup hlast hlast' rfl rfl]

@[simp] theorem nearest_nil (init : Option α) : nearest ([] : List (Moment ε α)) init = init := by
  simp [nearest]

/-- One call further down, its own value comes before those of the others. -/
theorem nearest_snoc (calls : List (Moment ε α)) (call : Moment ε α) (init : Option α) :
    nearest (calls ++ [call]) init = (call.handed <|> nearest calls init) := by
  unfold nearest
  rw [List.reverse_append, List.reverse_singleton, List.singleton_append, List.findSome?_cons]
  cases call.handed with
  | none => simp
  | some value => simp

/-- An accumulator comes from the calls of the ancestors of a node, which were made
    in the past. -/
def HandedFrom (init : Option α) (past : List (Moment ε α)) (path : List PathEntry)
    (acc : Option α) : Prop :=
  ∃ calls, Lineage calls path ∧ calls.Sublist past ∧ acc = nearest calls init

/-- What is said of a moment: a step that is called is handed an accumulator that
    comes from the calls of the ancestors. -/
def HandedDown (init : Option α) (past : List (Moment ε α)) : Moment ε α → Prop
  | .called _ path acc _ => HandedFrom init past path acc
  | _ => True

/-- Every visit of a walk gets its accumulator from the ancestors and hands on what
    its children get. -/
private theorem handedDown_invariant (a : Adapter) (init : Option α) :
    Invariant (ε := ε) a (HandedDown init) fun past path acc _ => HandedFrom init past path acc where
  later := by
    intro past more path acc _ h
    obtain ⟨calls, hlineage, hsub, hacc⟩ := h
    exact ⟨calls, hlineage, hsub.trans (List.sublist_append_left past more), hacc⟩
  child := by
    intro past path acc node slot _ answer h _
    obtain ⟨calls, hlineage, hsub, hacc⟩ := h
    -- The call at the node itself becomes the last of its children's lineage.
    refine ⟨calls ++ [.called node path acc answer],
      .child (slot.entry node) acc answer hlineage, hsub.append_right _, ?_⟩
    rw [nearest_snoc, ← hacc]
    rfl
  logged := fun _ => trivial
  called := fun _ h => h
  resumed := fun _ _ _ _ => trivial
  closed := fun _ _ _ => trivial

/-- Whenever a step is called, also in a walk that fails later, the accumulator it is
    handed is the first value found among the calls of its ancestors, from the
    nearest one outwards, and `init` if none of them has a value.  These calls were
    made before, and in a document with distinct keys there are no others to choose. -/
theorem history_handedDown (root : Value) (step : Step σ ε α) (init : Option α) (own : σ)
    (adapter : Option Adapter) (logger : Option (Logger σ)) :
    let moments := history root step init own adapter logger
    Throughout (HandedDown init) [] moments ∧
      (root.DistinctKeys → ∀ node path acc answer, .called node path acc answer ∈ moments →
        ∀ calls, Lineage calls path → calls ⊆ moments → acc = nearest calls init) := by
  intro moments
  have hdown : Throughout (HandedDown init) [] moments := by
    refine (handedDown_invariant (adapter.getD (.default root)) init).history ?_ step own logger
    exact ⟨[], .root, List.Sublist.refl [], by simp⟩
  refine ⟨hdown, ?_⟩
  intro hkeys node path acc answer hcalled calls hlineage hcalls
  -- The calls above the node are found in the past by the first part, and there are no others, as
  -- no turn is taken twice.
  have hnodup : (taken moments).Nodup :=
    (visit_history root step init own adapter logger).1.nodup_taken hkeys
  obtain ⟨before, after, hmoments⟩ := List.append_of_mem hcalled
  rw [hmoments] at hdown
  obtain ⟨calls', hlineage', hsub, hacc⟩ := hdown.split
  have hcalls' : calls' ⊆ moments := by
    intro call hcall
    rw [hmoments]
    exact List.mem_append_left _ (hsub.subset hcall)
  rw [hlineage.unique hnodup hlineage' hcalls hcalls']
  exact hacc

end TreeWalk
