import TreeWalk.Proofs.ReorderedWalks

/-! # Selecting more operators

A fold with more operators selected suspends at more nodes, gives values to expressions that had
none, and may fail where the other fold went on.  What it does not do is to change a value: an
expression that has one keeps it.  So if both folds end normally, the values that the first
reports are reported by the second, too, in the same order among others.

## Key results

* `Folding.eval_mono` says that a tree keeps its value when more operators are selected.
* `Folding.values_of_ok` says what a fold that ended normally has reported.
* `traverse_fold_subset` compares two folds of one tree. -/

namespace TreeWalk

namespace Folding

variable {selected more : List Operator}

/-- Of more symbols, more operators are selected. -/
theorem select_subset {symbols symbols' : List String} (hsub : symbols ⊆ symbols')
    (h : select symbols = .ok selected) (h' : select symbols' = .ok more) : selected ⊆ more := by
  -- A selection that is not refused takes every symbol for its operator.
  have hfound : ∀ {symbols : List String} {found : List Operator},
      select symbols = .ok found → found = symbols.filterMap Operator.ofSymbol? := by
    intro symbols found hselect
    unfold select at hselect
    split at hselect
    · exact (Except.ok.inj hselect).symm
    · cases hselect
  rw [hfound h, hfound h']
  exact List.filterMap_subset Operator.ofSymbol? hsub

/-- A node that is something to a fold is the same to one with more operators selected. -/
theorem role_of_subset (hsub : selected ⊆ more) {kind : Option String} {node : Value}
    (h : role selected kind node ≠ .other) : role more kind node = role selected kind node := by
  unfold role at h ⊢
  by_cases hliteral : isLiteralKind kind = true
  · simp only [hliteral, ↓reduceIte]
  · by_cases hbinary : isBinaryKind kind = true
    · simp only [hliteral, hbinary, Bool.false_eq_true, ↓reduceIte] at h ⊢
      cases hop : operator? node with
      | none => rfl
      | some op =>
        simp only [hop] at h ⊢
        -- Were the operator not selected, the node would be nothing to the fold.
        by_cases hmem : selected.contains op = true
        · have hmore : more.contains op = true :=
            List.contains_iff_mem.mpr (hsub (List.contains_iff_mem.mp hmem))
          simp only [hmem, hmore, ↓reduceIte]
        · simp only [hmem, Bool.false_eq_true, ↓reduceIte] at h
          exact absurd rfl h
    · simp only [hliteral, hbinary, Bool.false_eq_true, ↓reduceIte]

mutual

/-- A tree that has a value keeps it when more operators are selected. -/
theorem eval_mono (hsub : selected ⊆ more) : ∀ (tree : Tree) {value : Number},
    eval selected tree = some value → eval more tree = some value
  | .sealed root, value, h => by
    unfold eval at h
    cases h
  | .node root kind children, value, h => by
    have hleft := @operand_mono hsub "left" children
    have hright := @operand_mono hsub "right" children
    unfold eval at h ⊢
    cases hrole : role selected kind root with
    | other =>
      rw [hrole] at h
      cases h
    | literal number =>
      have hmore : role more kind root = .literal number := by
        rw [role_of_subset hsub (by simp [hrole]), hrole]
      rw [hrole] at h
      rw [hmore]
      exact h
    | binary op =>
      have hmore : role more kind root = .binary op := by
        rw [role_of_subset hsub (by simp [hrole]), hrole]
      rw [hrole] at h
      rw [hmore]
      -- An expression with a value has two operands with values, and they keep theirs.
      simp only at h ⊢
      cases hx : operand selected "left" children with
      | none => simp [hx] at h
      | some x =>
        cases hy : operand selected "right" children with
        | none => simp [hx, hy] at h
        | some y =>
          rw [hx, hy] at h
          rw [hleft hx, hright hy]
          exact h

/-- An operand keeps its value when more operators are selected. -/
theorem operand_mono (hsub : selected ⊆ more) (name : String) :
    ∀ (children : List (Slot × Tree)) {value : Number},
      operand selected name children = some value → operand more name children = some value
  | [], value, h => by
    unfold operand at h
    cases h
  | (slot, tree) :: rest, value, h => by
    unfold operand at h ⊢
    -- The field is found by its name, whatever is selected.
    by_cases hslot : (slot.prop.isText name && slot.index.isNone) = true
    · rw [if_pos hslot] at h ⊢
      exact eval_mono hsub tree h
    · rw [if_neg hslot] at h ⊢
      exact operand_mono hsub name rest h

end

variable {a : Adapter} {root : Value}

/-- An expression that has a value is among those with a value when more operators are
    selected. -/
theorem selection_mono (hsub : selected ⊆ more) {node : Value} {value : Number}
    (h : (selection selected a node).join = some value) :
    (selection more a node).join = some value := by
  unfold selection at h ⊢
  cases hrole : role selected (a.kindOf node) node with
  | literal number => simp [hrole] at h
  | other => simp [hrole] at h
  | binary op =>
    rw [role_of_subset hsub (by simp [hrole]), hrole]
    rw [hrole] at h
    simp only [Option.join_some] at h ⊢
    exact eval_mono hsub (a.view node) h

/-- What reports more at every place reports the same things among others. -/
theorem sublist_filterMap {ι β : Type} {f g : ι → Option β} (places : List ι)
    (h : ∀ place value, f place = some value → g place = some value) :
    (places.filterMap f).Sublist (places.filterMap g) := by
  induction places with
  | nil => exact List.Sublist.refl _
  | cons place rest ih =>
    -- A place that gave something before gives the same now, and one that gave nothing may give
    -- more.
    cases hf : f place with
    | some value =>
      rw [List.filterMap_cons_some hf, List.filterMap_cons_some (h place value hf)]
      exact ih.cons_cons value
    | none =>
      rw [List.filterMap_cons_none hf]
      cases hg : g place with
      | none => rwa [List.filterMap_cons_none hg]
      | some value =>
        rw [List.filterMap_cons_some hg]
        exact ih.cons value

/-- A fold that ends normally has the value of the root as result and has reported the values of
    the expressions with a selected operator. -/
theorem values_of_ok {adapter : Option Adapter} (ha : adapter.getD (.default root) = a)
    (hseparate : a.SeparateBelow root) {init result : Option Number} {reported : List Number}
    (h : (traverse root (step selected) init reported adapter).outcome = .ok result) :
    result = valueOf selected a root ∧
      (traverse root (step selected) init reported adapter).own =
        reported ++ (a.view root).nodes.filterMap fun node => (selection selected a node).join := by
  cases hreads : a.reads root with
  | false =>
    -- A root that cannot be read ends the walk at once.
    have hrole : role selected (a.kindOf root) root = .other := by
      rw [Adapter.kindOf_of_not_reads hreads]
      rfl
    rw [traverse_of_not_reads ha hreads _ (start_other hrole)] at h
    cases h
  | true =>
    have hdues : ((a.exits root).filterMap (report selected a)).map Except.toOption =
        (a.view root).nodes.filterMap (selection selected a) :=
      map_toOption_report hreads hseparate
    rw [traverse_fold_settled ha hreads hseparate selected init reported] at h ⊢
    by_cases hnone : none ∈ ((a.exits root).filterMap (report selected a)).map Except.toOption
    · obtain ⟨error, herror⟩ := announce_of_mem hnone
      rw [Walker.settled, herror] at h
      cases h
    · rw [Walker.settled, announce_of_not_mem hnone] at h ⊢
      constructor
      · exact (Except.ok.inj h).symm
      · show reported ++ List.filterMap id _ = _
        rw [hdues, List.filterMap_filterMap]
        rfl

end Folding

/-- If two folds of one tree both end normally, the second with all the operators of the first
    selected, then the values that the first reports are a subsequence of those that the second
    reports, and a result of the first is the result of the second. -/
theorem traverse_fold_subset (root : Value) (adapter : Option Adapter)
    (symbols symbols' : List String) (hsub : symbols ⊆ symbols') (init : Option Number)
    (reported : List Number)
    (hseparate : (adapter.getD (.default root)).SeparateBelow root) {few many : List Operator}
    (hfew : Folding.select symbols = .ok few) (hmany : Folding.select symbols' = .ok many)
    {result result' : Option Number} :
    let walk := traverse root (Folding.step few) init reported adapter
    let walk' := traverse root (Folding.step many) init reported adapter
    walk.outcome = .ok result → walk'.outcome = .ok result' →
      (∃ values values', walk.own = reported ++ values ∧ walk'.own = reported ++ values' ∧
        values.Sublist values') ∧
      ∀ value, result = some value → result' = some value := by
  intro walk walk' hok hok'
  -- Both walks report the values of the selected expressions, so that these are what is compared.
  have hoperators : few ⊆ many := Folding.select_subset hsub hfew hmany
  obtain ⟨hresult, hown⟩ := Folding.values_of_ok rfl hseparate hok
  obtain ⟨hresult', hown'⟩ := Folding.values_of_ok rfl hseparate hok'
  constructor
  · refine ⟨_, _, hown, hown', ?_⟩
    apply Folding.sublist_filterMap
    intro node value hvalue
    exact Folding.selection_mono hoperators hvalue
  · intro value hvalue
    rw [hresult']
    rw [hresult] at hvalue
    exact Folding.eval_mono hoperators _ hvalue

/-- The document of the sum `1 + 2` with the product `2 * 3` in a field beside its operands. -/
def notedSum : Value :=
  .dict [(.str "type", .str "BinaryExpression"),
    (.str "left", .dict [(.str "type", .str "NumericLiteral"), (.str "value", .int 1)]),
    (.str "operator", .str "+"),
    (.str "right", .dict [(.str "type", .str "NumericLiteral"), (.str "value", .int 2)]),
    (.str "note", .dict [(.str "type", .str "BinaryExpression"),
      (.str "left", .dict [(.str "type", .str "NumericLiteral"), (.str "value", .int 2)]),
      (.str "operator", .str "*"),
      (.str "right", .dict [(.str "type", .str "NumericLiteral"), (.str "value", .int 3)])])]

/-- The syntax tree of `1 + 2 if x else 2 * 3`. -/
def sumOrProduct : Value :=
  let constant (i : Int) : Value := Form.node "Constant" [("value", .int i)]
  let binary (op : String) (i j : Int) : Value :=
    Form.node "BinOp" [("left", constant i), ("op", Form.node op []), ("right", constant j)]
  let name : Value := Form.node "Name" [("id", .str "x"), ("ctx", Form.node "Load" [])]
  Form.node "Expression" [("body", Form.node "IfExp"
    [("test", name), ("body", binary "Add" 1 2), ("orelse", binary "Mult" 2 3)])]

/-- Once it is known that a fold ends normally, its result and what it reports can be read off
    the tree. -/
theorem Folding.values_of_isOk (root : Value) (a : Adapter)
    (ha : (none : Option Adapter).getD (.default root) = a) (hseparate : a.SeparateBelow root)
    {selected : List Operator}
    (hok : (traverse root (Folding.step selected) none []).outcome.isOk = true) :
    (traverse root (Folding.step selected) none []).outcome =
        .ok (Folding.valueOf selected a root) ∧
      (traverse root (Folding.step selected) none []).own =
        (a.view root).nodes.filterMap fun node => (Folding.selection selected a node).join := by
  cases h : (traverse root (Folding.step selected) none []).outcome with
  | error failure => simp [h, Except.isOk, Except.toBool] at hok
  | ok result =>
    obtain ⟨hresult, hown⟩ := Folding.values_of_ok ha hseparate h
    exact ⟨congrArg Except.ok hresult, hown⟩

/-- With the product selected, too, the fold of the sum reports the product before the sum; the
    result stays the sum.  Where the sum and the product are the branches of a choice, the
    product comes second, and the choice has no value. -/
theorem traverse_fold_subset_notedSum :
    let walk (root : Value) := traverse root (Folding.step [.plus]) none []
    let walk' (root : Value) := traverse root (Folding.step [.times, .plus]) none []
    (["+"] ⊆ ["*", "+"]) ∧
      Folding.select ["+"] = .ok [.plus] ∧ Folding.select ["*", "+"] = .ok [.times, .plus] ∧
      (Adapter.tagged.SeparateBelow notedSum ∧
        (walk notedSum).outcome = .ok (some (.int 3)) ∧ (walk notedSum).own = [.int 3] ∧
        (walk' notedSum).outcome = .ok (some (.int 3)) ∧
        (walk' notedSum).own = [.int 6, .int 3] ∧
        (walk notedSum).own.Sublist (walk' notedSum).own) ∧
      Adapter.source.SeparateBelow sumOrProduct ∧
        (walk sumOrProduct).outcome = .ok none ∧ (walk sumOrProduct).own = [.int 3] ∧
        (walk' sumOrProduct).outcome = .ok none ∧
        (walk' sumOrProduct).own = [.int 3, .int 6] ∧
        (walk sumOrProduct).own.Sublist (walk' sumOrProduct).own := by
  intro walk walk'
  have hsub : ["+"] ⊆ ["*", "+"] := by decide
  have hkeys : notedSum.SeparateKeys := by
    simp [notedSum, Value.SeparateKeys, Value.EveryRecord, Value.EveryRecordEntries,
      Value.sameKey_str]
  have hkeysSource : sumOrProduct.SeparateKeys := by
    simp [sumOrProduct, Form.node, Value.SeparateKeys, Value.EveryRecord,
      Value.EveryRecordEntries, Value.sameKey_str]
  -- The same is done with a dictionary and with a form: the walks are computed, and the theorem is
  -- applied to their outcomes.
  refine ⟨hsub, rfl, rfl, ?_, ?_⟩
  · have hseparate := Adapter.tagged.separateBelow_of_separateKeys hkeys
    obtain ⟨hok, hown⟩ := Folding.values_of_isOk notedSum .tagged rfl hseparate
      (by decide +kernel : (walk notedSum).outcome.isOk = true)
    obtain ⟨hok', hown'⟩ := Folding.values_of_isOk notedSum .tagged rfl hseparate
      (by decide +kernel : (walk' notedSum).outcome.isOk = true)
    obtain ⟨⟨values, values', hvalues, hvalues', hsublist⟩, -⟩ :=
      traverse_fold_subset notedSum none ["+"] ["*", "+"] hsub none [] hseparate rfl rfl hok hok'
    rw [List.nil_append] at hvalues hvalues'
    rw [← hvalues, ← hvalues'] at hsublist
    exact ⟨hseparate, hok, hown, hok', hown', hsublist⟩
  · have hseparate := Adapter.source.separateBelow_of_separateKeys hkeysSource
    obtain ⟨hok, hown⟩ := Folding.values_of_isOk sumOrProduct .source rfl hseparate
      (by decide +kernel : (walk sumOrProduct).outcome.isOk = true)
    obtain ⟨hok', hown'⟩ := Folding.values_of_isOk sumOrProduct .source rfl hseparate
      (by decide +kernel : (walk' sumOrProduct).outcome.isOk = true)
    obtain ⟨⟨values, values', hvalues, hvalues', hsublist⟩, -⟩ := traverse_fold_subset sumOrProduct
      none ["+"] ["*", "+"] hsub none [] hseparate rfl rfl hok hok'
    rw [List.nil_append] at hvalues hvalues'
    rw [← hvalues, ← hvalues'] at hsublist
    exact ⟨hseparate, hok, hown, hok', hown', hsublist⟩

end TreeWalk
