import TreeWalk.Proofs.FoldedWalks
import TreeWalk.Proofs.Reordering
import TreeWalk.Proofs.Summaries

/-! # Walks of reordered documents

A walk goes through a reordered document in another order, meets other failures first, and gives
the results of the children of a node to its step in another order.  The counts of the kinds, the
depth and the value of an expression depend on none of this.

## Key results

* `countKinds_shuffled`, `maxDepth_shuffled` and `fold_shuffled` compare one walk each.
* `traverse_reordered` compares the three walks over a document and a reordered one. -/

namespace TreeWalk

variable {σ ε β : Type}

/-! ## What the walks see -/

/-- The kinds of shuffled documents are the same up to the order. -/
theorem Adapter.perm_kindsAt (a : Adapter) {root root' : Value} (h : root.Shuffled root') :
    (a.kindsAt (a.stops root)).Perm (a.kindsAt (a.stops root')) := by
  -- The stops and the exits are the same nodes, and the kinds of the exits are carried over.
  have hkinds : ∀ root, (a.kindsAt (a.stops root)).Perm
      ((a.view root).nodes.filterMap fun node => some (a.kindOf node)) := by
    intro root
    rw [← Tree.map_node_exits (a.view root) [] [], List.filterMap_map]
    show (a.kindsAt (a.stops root)).Perm
      ((a.exits root).filterMap (some ∘ fun stop => a.kindOf stop.node))
    rw [List.filterMap_eq_map]
    exact ((Tree.exits_perm (a.view root) [] []).map fun stop => a.kindOf stop.node).symm
  have hnodes := (Tree.carried_nodes a (f := fun node => some (a.kindOf node))
    fun value value' hshuffled => by rw [hshuffled.kindOf_eq]).view h
  exact ((hkinds root).trans hnodes).trans (hkinds root').symm

/-- Kinds in another order are counted the same. -/
theorem Tally.perm_ofKinds {kinds kinds' : List (Option String)} (h : kinds.Perm kinds') :
    (Tally.ofKinds kinds).Perm (Tally.ofKinds kinds') := by
  have hcount : (fun kind => (kind, kinds.count kind)) = fun kind => (kind, kinds'.count kind) := by
    funext kind
    rw [h.count_eq]
  rw [ofKinds_eq, ofKinds_eq, hcount]
  refine List.Perm.map _ ((List.perm_ext_iff_of_nodup (nodup_eraseDups kinds)
    (nodup_eraseDups kinds')).mpr ?_)
  intro kind
  rw [List.mem_eraseDups, List.mem_eraseDups, h.mem_iff]

/-- A tally has every kind once. -/
theorem Tally.nodup_keys_ofKinds (kinds : List (Option String)) :
    ((Tally.ofKinds kinds).map Prod.fst).Nodup := by
  rw [ofKinds_eq, List.map_map]
  exact (List.map_id kinds.eraseDups).symm ▸ nodup_eraseDups kinds

namespace Folding

variable (selected : List Operator) (a : Adapter)

/-- The value of an expression with a selected operator, if there is one. -/
def selection (node : Value) : Option (Option Number) :=
  match role selected (a.kindOf node) node with
  | .binary _ => some (valueOf selected a node)
  | _ => none

/-- A shuffled node has the same value, if it is an expression that is selected. -/
theorem selection_eq {value value' : Value} (h : value.Shuffled value') :
    selection selected a value = selection selected a value' := by
  have hvalue : valueOf selected a value = valueOf selected a value' :=
    (Tree.carried_eval a selected).view h
  rw [selection, selection, hvalue, h.kindOf_eq, h.role_eq]

variable {selected a} {root : Value}

/-- What the step reports is the values of the expressions, where they have one. -/
theorem map_toOption_report (hreads : a.reads root = true) (hseparate : a.SeparateBelow root) :
    ((a.exits root).filterMap (report selected a)).map Except.toOption =
      (a.view root).nodes.filterMap (selection selected a) := by
  rw [← Tree.map_node_exits (a.view root) [] [], List.filterMap_map, List.map_filterMap]
  refine List.filterMap_congr ?_
  intro stop hstop
  have hreach := (a.exists_exit_iff root _ _).mp ⟨stop, hstop, rfl⟩
  -- At each exit, what is reported is the value if there is one, whatever the reason if there is
  -- none.
  cases hview : a.view stop.node with
  | «sealed» value =>
    have hsealed := Adapter.reads_of_view_eq_sealed hview
    rw [hreach.reads hreads] at hsealed
    cases hsealed
  | node value kind trees =>
    obtain ⟨rfl, rfl, -⟩ := Adapter.of_view_eq_node hview
    rw [report, Function.comp_apply, selection]
    cases hrole : role selected (a.kindOf stop.node) stop.node with
    | literal number => rfl
    | other => rfl
    | binary op =>
      have hcombine := eval_eq_combine hview (fun _ hfields => hseparate _ _ _ hreach hfields) hrole
        ((a.kindOf stop.node).getD "None") (a.location stop.path)
      rw [valueOf, hview, hcombine]
      rfl

/-- If everything that is due is a value, these values are reported. -/
theorem announce_of_not_mem {dues : List (Except Error Number)}
    (h : none ∉ dues.map Except.toOption) :
    announce dues = ((dues.map Except.toOption).reduceOption, .ok ()) := by
  induction dues with
  | nil => rfl
  | cons d rest ih =>
    cases d with
    | error error => simp [Except.toOption] at h
    | ok value =>
      rw [List.map_cons, List.mem_cons, not_or] at h
      rw [announce, ih h.2]
      rfl

/-- If something else is due, it is an error that breaks off. -/
theorem announce_of_mem {dues : List (Except Error Number)} (h : none ∈ dues.map Except.toOption) :
    ∃ error, (announce dues).2 = .error error := by
  induction dues with
  | nil => cases h
  | cons d rest ih =>
    cases d with
    | error error => exact ⟨error, rfl⟩
    | ok value =>
      rcases List.mem_cons.mp h with heq | hrest
      · cases heq
      · exact ih hrest

end Folding

/-- A walk from a value that cannot be read ends there, once its step has been started. -/
theorem traverse_of_not_reads {root : Value} {adapter : Option Adapter} {a : Adapter}
    (ha : adapter.getD (.default root) = a) (hreads : a.reads root = false) (step : Step σ ε α)
    {init : Option α} {own own' : σ} {started : Started σ ε α}
    (hstart : step.start root init { path := [], adapter := some a } own = .ok started own') :
    traverse root step init own adapter = ⟨.error (.noFields root.typeName), [], own'⟩ := by
  subst ha
  have hview : (adapter.getD (.default root)).view root = .sealed root := by
    rw [Adapter.view, hreads]
    rfl
  rw [traverse_eq, hview]
  exact congrArg Ending.ofVisit (Walker.visit_sealed_eq rfl hstart)

section

variable {root root' : Value} {adapter : Option Adapter} {a : Adapter}

/-- Shuffled documents have the same counts of kinds. -/
theorem countKinds_shuffled (h : root.Shuffled root') (hkeys' : root'.SeparateKeys)
    (ha : adapter.getD (.default root) = a) (ha' : adapter.getD (.default root') = a)
    (init : Option Tally) (own : σ) :
    let counted root := (traverse root (countKinds : Step σ ε Tally) init own adapter).outcome
    (∃ counts counts', counted root = .ok (some counts) ∧ counted root' = .ok (some counts') ∧
      counts.Perm counts' ∧ (counts.map Prod.fst).Nodup) ∨
    ∃ failure, a.reads root = false ∧ counted root = .error failure ∧
      counted root' = .error failure := by
  intro counted
  -- Whether the root is read at all is the same for both.
  cases hreads : a.reads root with
  | true =>
    have hcounted : counted root = _ := congrArg Ending.outcome
      (countKinds_eq_of_reads ha hreads (a.separateBelow_of_separateKeys h.separate) init own)
    rw [h.reads_eq] at hreads
    have hcounted' : counted root' = _ := congrArg Ending.outcome
      (countKinds_eq_of_reads ha' hreads (a.separateBelow_of_separateKeys hkeys') init own)
    exact .inl ⟨_, _, hcounted, hcounted', Tally.perm_ofKinds (a.perm_kindsAt h),
      Tally.nodup_keys_ofKinds _⟩
  | false =>
    have hcounted : counted root = _ := congrArg Ending.outcome
      (traverse_of_not_reads ha hreads countKinds rfl)
    rw [h.reads_eq] at hreads
    have hcounted' : counted root' = _ := congrArg Ending.outcome
      (traverse_of_not_reads ha' hreads countKinds rfl)
    rw [← Value.Shuffled.typeName_eq h.reordered] at hcounted'
    exact .inr ⟨_, rfl, hcounted, hcounted'⟩

/-- Shuffled documents have the same depth. -/
theorem maxDepth_shuffled (h : root.Shuffled root') (hkeys' : root'.SeparateKeys)
    (ha : adapter.getD (.default root) = a) (ha' : adapter.getD (.default root') = a)
    (init : Option Nat) (own : σ) :
    (traverse root (maxDepth : Step σ ε Nat) init own adapter).outcome =
      (traverse root' (maxDepth : Step σ ε Nat) init own adapter).outcome := by
  -- Whether the root is read at all is the same for both.
  cases hreads : a.reads root with
  | true =>
    rw [traverse_gathers_of_reads maxDepth_gathers ha hreads
      (a.separateBelow_of_separateKeys h.separate)]
    rw [h.reads_eq] at hreads
    rw [traverse_gathers_of_reads maxDepth_gathers ha' hreads
      (a.separateBelow_of_separateKeys hkeys'), (Tree.carried_depth a).view h]
  | false =>
    rw [traverse_of_not_reads ha hreads maxDepth rfl]
    rw [h.reads_eq] at hreads
    rw [traverse_of_not_reads ha' hreads maxDepth rfl,
      Value.Shuffled.typeName_eq h.reordered]

/-- The folds of shuffled documents both fail, or they have the same result and report the same
    values up to the order. -/
theorem fold_shuffled (h : root.Shuffled root') (hkeys' : root'.SeparateKeys)
    (ha : adapter.getD (.default root) = a) (ha' : adapter.getD (.default root') = a)
    (selected : List Operator) (init : Option Number) (reported : List Number) :
    let folded root := traverse root (Folding.step selected) init reported adapter
    (∃ result values values', folded root = ⟨.ok result, [], reported ++ values⟩ ∧
      folded root' = ⟨.ok result, [], reported ++ values'⟩ ∧ values.Perm values') ∨
    ∃ failure failure', (folded root).outcome = .error failure ∧
      (folded root').outcome = .error failure' := by
  intro folded
  cases hreads : a.reads root with
  | true =>
    -- The same things are due in both walks, though not in the same order.
    have hreads' : a.reads root' = true := by
      rw [← h.reads_eq, hreads]
    have hseparate := a.separateBelow_of_separateKeys h.separate
    have hseparate' := a.separateBelow_of_separateKeys hkeys'
    have hvalues : (((a.exits root).filterMap (Folding.report selected a)).map Except.toOption).Perm
        (((a.exits root').filterMap (Folding.report selected a)).map Except.toOption) := by
      rw [Folding.map_toOption_report hreads hseparate,
        Folding.map_toOption_report hreads' hseparate']
      exact (Tree.carried_nodes a fun _ _ => Folding.selection_eq selected a).view h
    have hresult : Folding.valueOf selected a root = Folding.valueOf selected a root' :=
      (Tree.carried_eval a selected).view h
    have hfold : folded root = _ :=
      traverse_fold_settled ha hreads hseparate selected init reported
    have hfold' : folded root' = _ :=
      traverse_fold_settled ha' hreads' hseparate' selected init reported
    rw [← hresult] at hfold'
    by_cases hnone : none ∈
        ((a.exits root).filterMap (Folding.report selected a)).map Except.toOption
    · -- What breaks one walk off is due in the other, too.
      obtain ⟨error, herror⟩ := Folding.announce_of_mem hnone
      obtain ⟨error', herror'⟩ := Folding.announce_of_mem (hvalues.mem_iff.mp hnone)
      rw [Walker.settled, herror] at hfold
      rw [Walker.settled, herror'] at hfold'
      exact .inr ⟨.step error, .step error', congrArg Ending.outcome hfold,
        congrArg Ending.outcome hfold'⟩
    · have hnone' := fun hmem => hnone (hvalues.mem_iff.mpr hmem)
      rw [Walker.settled, Folding.announce_of_not_mem hnone] at hfold
      rw [Walker.settled, Folding.announce_of_not_mem hnone'] at hfold'
      exact .inl ⟨_, _, _, hfold, hfold', hvalues.filterMap id⟩
  | false =>
    have hother : ∀ value, a.reads value = false →
        Folding.role selected (a.kindOf value) value = .other := by
      intro value hvalue
      rw [Adapter.kindOf_of_not_reads hvalue]
      rfl
    have hreads' : a.reads root' = false := by
      rw [← h.reads_eq, hreads]
    exact .inr ⟨_, _, congrArg Ending.outcome
      (traverse_of_not_reads ha hreads _ (Folding.start_other (hother root hreads))),
      congrArg Ending.outcome
        (traverse_of_not_reads ha' hreads' _ (Folding.start_other (hother root' hreads')))⟩

end

/-- The order of the entries of dictionaries does not matter to the walks that count kinds,
    measure the depth or fold expressions: the counts have the same entries, the depth is the
    same, and the folds both fail or give the same result, and then report the same values up to
    the order. -/
theorem traverse_reordered {root root' : Value} (h : root.Reordered root')
    (hkeys : root.SeparateKeys) (hkeys' : root'.SeparateKeys) (adapter : Option Adapter)
    (selected : List Operator) (tally : Option Tally) (depth : Option Nat)
    (number : Option Number) (own : σ) (reported : List Number) :
    let counted root := (traverse root (countKinds : Step σ ε Tally) tally own adapter).outcome
    let measured root := (traverse root (maxDepth : Step σ ε Nat) depth own adapter).outcome
    let folded root := traverse root (Folding.step selected) number reported adapter
    ((∃ counts counts', counted root = .ok (some counts) ∧ counted root' = .ok (some counts') ∧
        counts.Perm counts' ∧ (counts.map Prod.fst).Nodup) ∨
      ∃ failure, (adapter.getD (.default root)).reads root = false ∧
        counted root = .error failure ∧ counted root' = .error failure) ∧
    measured root = measured root' ∧
    ((∃ result values values', folded root = ⟨.ok result, [], reported ++ values⟩ ∧
        folded root' = ⟨.ok result, [], reported ++ values'⟩ ∧ values.Perm values') ∨
      ∃ failure failure', (folded root).outcome = .error failure ∧
        (folded root').outcome = .error failure') := by
  have hshuffled : root.Shuffled root' := ⟨hkeys, h⟩
  have ha' : adapter.getD (.default root') = adapter.getD (.default root) := by
    rw [Value.Shuffled.default_eq h]
  exact ⟨countKinds_shuffled hshuffled hkeys' rfl ha' tally own,
    maxDepth_shuffled hshuffled hkeys' rfl ha' depth own,
    fold_shuffled hshuffled hkeys' rfl ha' selected number reported⟩

/-- The document of the sum `1 + 2` with its fields in the opposite order. -/
def reversedSum : Value :=
  .dict [(.str "right", .dict [(.str "type", .str "NumericLiteral"), (.str "value", .int 2)]),
    (.str "operator", .str "+"),
    (.str "left", .dict [(.str "type", .str "NumericLiteral"), (.str "value", .int 1)]),
    (.str "type", .str "BinaryExpression")]

/-- Folding the sum succeeds, so both documents have the same result and report the same
    values. -/
theorem traverse_reordered_reversedSum :
    onePlusTwo.Reordered reversedSum ∧ onePlusTwo.SeparateKeys ∧ reversedSum.SeparateKeys ∧
      ∃ result values values',
        traverse onePlusTwo (Folding.step [.plus]) none [] = ⟨.ok result, [], values⟩ ∧
        traverse reversedSum (Folding.step [.plus]) none [] = ⟨.ok result, [], values'⟩ ∧
        values.Perm values' := by
  have hreordered : onePlusTwo.Reordered reversedSum :=
    .dict rfl (List.forall₂_same.mpr fun value _ => .same value) (List.reverse_perm _).symm
  have hkeys := separateKeys_onePlusTwo
  have hkeys' : reversedSum.SeparateKeys := by
    simp [reversedSum, Value.SeparateKeys, Value.EveryRecord, Value.EveryRecordEntries,
      Value.sameKey_str]
  obtain ⟨-, -, hfolded⟩ := traverse_reordered (σ := Unit) (ε := Empty) hreordered hkeys hkeys' none
    [.plus] none none none () []
  have hok : (traverse onePlusTwo (Folding.step [.plus]) none []).outcome.isOk = true := by
    decide +kernel
  refine ⟨hreordered, hkeys, hkeys', ?_⟩
  -- The walk of the sum does not fail, which leaves one of the two endings.
  rcases hfolded with hends | ⟨failure, -, hfailed, -⟩
  · exact hends
  · simp only at hfailed
    rw [hfailed] at hok
    cases hok

end TreeWalk
