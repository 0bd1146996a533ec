import Mathlib.Data.List.Flatten
import TreeWalk.Proofs.SkippedFields
import TreeWalk.Proofs.Summaries

/-! # Skipping more fields

A walk that skips more fields comes to fewer nodes.  Those it still comes to are the same, by
the same paths and in the same order, so that nothing is revealed by skipping: the listing of
the kinds only loses items, no kind is counted more often and the tree is not measured deeper.

## Key results

* `Adapter.sublist_position_stops` compares the nodes that the two walks come to.
* `traverse_skipMore` compares the walks that list kinds, count them and measure the depth. -/

namespace TreeWalk

variable {σ ε : Type}

namespace Adapter

/-! ## One level -/

/-- Of two adapters of one family the first skips whatever the second one skips. -/
structure SkipsMore (more fewer : Adapter) : Prop where
  family_eq : more.family = fewer.family
  skips_of_skips : ∀ name, fewer.skips name = true → more.skips name = true

variable {more fewer : Adapter} {root node : Value} {path : List PathEntry}

namespace SkipsMore

/-- What is a node, and of which kind, is a matter of the family alone. -/
theorem kindOf_eq (h : SkipsMore more fewer) (value : Value) :
    more.kindOf value = fewer.kindOf value := by
  unfold kindOf
  rw [h.family_eq]

/-- To skip more fields does not change what is a node. -/
theorem isNode_eq (h : SkipsMore more fewer) (value : Value) :
    more.isNode value = fewer.isNode value := by
  rw [isNode, isNode, h.kindOf_eq]

/-- Nor does it change what children a field holds. -/
theorem held_eq (h : SkipsMore more fewer) (value : Value) :
    more.held value = fewer.held value := by
  unfold held
  simp only [h.isNode_eq]

/-- The fields that are left are some of those there were, in their order. -/
theorem exists_fields? (h : SkipsMore more fewer) {fields : List (Value × Value)}
    (hfields : fewer.fields? node = some fields) :
    ∃ left, more.fields? node = some left ∧ left.Sublist fields := by
  -- The fields are the same ones in the same order, less those whose names are skipped.
  have hleft : ∀ all : List (Value × Value), (all.filter fun entry => !more.skips entry.1).Sublist
      (all.filter fun entry => !fewer.skips entry.1) := by
    intro all
    refine List.monotone_filter_right all fun entry hentry => ?_
    cases hskips : fewer.skips entry.1 with
    | false => rfl
    | true =>
      rw [h.skips_of_skips entry.1 hskips] at hentry
      exact hentry
  have hreads : more.reads node = fewer.reads node := by
    unfold reads
    rw [h.family_eq, h.isNode_eq]
  unfold fields? at hfields ⊢
  obtain ⟨hread, hfields⟩ := Option.ite_none_right_eq_some.mp hfields
  rw [hreads, if_pos hread]
  cases node with
  | record holder entries aside =>
    obtain rfl := Option.some.inj hfields
    refine ⟨_, rfl, ?_⟩
    unfold arrange
    rw [h.family_eq]
    exact hleft _
  | _ =>
    obtain rfl := Option.some.inj hfields
    exact ⟨_, rfl, List.Sublist.refl _⟩

/-- The children that are left are some of those there were, in their order. -/
theorem exists_children? (h : SkipsMore more fewer) {children : List (Slot × Value)}
    (hchildren : fewer.children? node = some children) :
    ∃ left, more.children? node = some left ∧ left.Sublist children := by
  obtain ⟨fields, hfields, rfl⟩ := Option.map_eq_some_iff.mp hchildren
  obtain ⟨left, hleft, hsub⟩ := h.exists_fields? hfields
  refine ⟨_, congrArg (Option.map _) hleft, ?_⟩
  simp only [h.held_eq]
  exact hsub.flatMap _

/-- Nor does it change what is read at all. -/
theorem children?_eq_none (h : SkipsMore more fewer) (hchildren : fewer.children? node = none) :
    more.children? node = none := by
  rw [children?_eq_none_iff] at hchildren ⊢
  unfold reads at hchildren ⊢
  rwa [h.family_eq, h.isNode_eq]

/-! ## The nodes that are left -/

mutual

/-- The nodes below a value that are left are some of those there were, by the same paths and in
    the same order. -/
theorem sublist_stops (h : SkipsMore more fewer) : ∀ (tree : Tree) (node : Value),
    fewer.view node = tree → ∀ (address address' : List Nat) (path : List PathEntry),
      (((more.view node).stops address' path).map Stop.position).Sublist
        ((tree.stops address path).map Stop.position)
  | .sealed value, node, hview, address, address', path => by
    obtain ⟨rfl, hsealed⟩ := of_view_eq_sealed hview
    rw [view_eq, h.children?_eq_none hsealed]
    exact List.Sublist.refl _
  | .node value kind trees, node, hview, address, address', path => by
    obtain ⟨rfl, -, children, hchildren, htrees⟩ := of_view_eq_node hview
    obtain ⟨left, hleft, hsub⟩ := h.exists_children? hchildren
    rw [view_eq, hleft]
    simp only [Tree.stops, List.map_cons]
    have hbelow := sublist_stopsAll h value trees children htrees hsub address address' path 0 0
    exact hbelow.cons_cons _

/-- The nodes below the children that are left are some of those below all children. -/
theorem sublist_stopsAll (h : SkipsMore more fewer) (parent : Value) :
    ∀ (trees : List (Slot × Tree)) (children : List (Slot × Value)),
    children.map (fun child => (child.1, fewer.view child.2)) = trees →
    ∀ {left : List (Slot × Value)}, left.Sublist children →
    ∀ (address address' : List Nat) (path : List PathEntry) (i j : Nat),
      ((Tree.stopsAll address' path parent j
        (left.map fun child => (child.1, more.view child.2))).map Stop.position).Sublist
      ((Tree.stopsAll address path parent i trees).map Stop.position)
  | [], children, hview, left, hsub, address, address', path, i, j => by
    obtain rfl := List.map_eq_nil_iff.mp hview
    rw [List.sublist_nil.mp hsub]
    exact List.Sublist.refl _
  | (slot, tree) :: trees, children, hview, left, hsub, address, address', path, i, j => by
    obtain ⟨⟨place, child⟩, rest, rfl, hhead, hrest⟩ := List.map_eq_cons_iff.mp hview
    obtain ⟨rfl, hchild⟩ := Prod.mk.inj hhead
    rw [Tree.stopsAll, List.map_append]
    cases hsub with
    | cons _ hsub =>
      -- The first child is not left, and neither is anything below it.
      have hothers := sublist_stopsAll h parent trees rest hrest hsub address address' path
        (i + 1) j
      exact hothers.trans (List.sublist_append_right _ _)
    | cons_cons _ hsub =>
      have hfirst := sublist_stops h tree child hchild (address ++ [i]) (address' ++ [j])
        (path ++ [place.entry parent])
      have hothers := sublist_stopsAll h parent trees rest hrest hsub address address' path (i + 1)
        (j + 1)
      rw [List.map_cons, Tree.stopsAll, List.map_append]
      exact hfirst.append hothers

end

end SkipsMore

/-- The nodes that a walk comes to when it skips more fields are some of those that it comes to
    otherwise, by the same paths and in the same order. -/
theorem sublist_position_stops (h : SkipsMore more fewer) (root : Value) :
    ((more.stops root).map Stop.position).Sublist ((fewer.stops root).map Stop.position) :=
  h.sublist_stops (fewer.view root) root rfl [] [] []

namespace SkipsMore

/-- What is reached when more fields are skipped is reached otherwise, by the same path. -/
theorem reaches (h : SkipsMore more fewer) (hreach : more.Reaches root path node) :
    fewer.Reaches root path node := by
  obtain ⟨stop, hstop, hposition⟩ := (more.exists_stop_iff root path node).mpr hreach
  have hmem := (sublist_position_stops h root).subset (List.mem_map_of_mem hstop)
  obtain ⟨stop', hstop', heq⟩ := List.mem_map.mp hmem
  exact (fewer.exists_stop_iff root path node).mp ⟨stop', hstop', heq.trans hposition⟩

/-- Fields that are told apart are told apart when some of them are left out. -/
theorem separateBelow (h : SkipsMore more fewer) (hseparate : fewer.SeparateBelow root) :
    more.SeparateBelow root := by
  intro path node left hreach hleft
  cases hfields : fewer.fields? node with
  | none =>
    have hnone := h.children?_eq_none (congrArg (Option.map _) hfields)
    rw [children?, hleft] at hnone
    cases hnone
  | some fields =>
    obtain ⟨left', hleft', hsub⟩ := h.exists_fields? hfields
    obtain rfl : left' = left := by simpa [hleft'] using hleft
    exact (hseparate path node fields (h.reaches hreach) hfields).sublist hsub

/-- The kinds that are left are some of those there were, in their order. -/
theorem sublist_kindsAt (h : SkipsMore more fewer) (root : Value) :
    (more.kindsAt (more.stops root)).Sublist (fewer.kindsAt (fewer.stops root)) := by
  have hsub := (sublist_position_stops h root).map fun position => fewer.kindOf position.2
  rw [List.map_map, List.map_map] at hsub
  unfold kindsAt
  simp only [h.kindOf_eq]
  exact hsub

/-- What is left of a tree is no deeper than the tree. -/
theorem depth_le (h : SkipsMore more fewer) (root : Value) :
    (more.view root).fold gatherDepth ≤ (fewer.view root).fold gatherDepth := by
  have hmore := Tree.fold_depth (more.view root) [] []
  have hfewer := Tree.fold_depth (fewer.view root) [] []
  -- The deepest node that is left lies as deep as it did.
  obtain ⟨stop, hstop, hdepth⟩ := hmore.exists_eq (Tree.fold_depth_pos _)
  have hmem := (sublist_position_stops h root).subset (List.mem_map_of_mem hstop)
  obtain ⟨stop', hstop', heq⟩ := List.mem_map.mp hmem
  have hle := hfewer.le stop' hstop'
  have hpath : stop'.path = stop.path := congrArg Prod.fst heq
  rw [hpath] at hle
  omega

end SkipsMore

end Adapter

/-! ## The walks -/

/-- A tally of some kinds has the number of their occurrences for every kind, which is zero where
    it has no entry. -/
theorem Tally.lookup_ofKinds (kinds : List (Option String)) (kind : Option String) :
    ((ofKinds kinds).lookup kind).getD 0 = kinds.count kind := by
  -- The lookup is in a list of kinds, each of which is there once.
  have hlookup : ∀ listed : List (Option String),
      ((listed.map fun k => (k, kinds.count k)).lookup kind).getD 0 =
        if kind ∈ listed then kinds.count kind else 0 := by
    intro listed
    induction listed with
    | nil => rfl
    | cons first rest ih =>
      by_cases hkind : kind = first
      · simp [hkind]
      · rw [List.map_cons, List.lookup_cons, beq_false_of_ne hkind]
        simpa [hkind] using ih
  rw [ofKinds_eq, hlookup]
  simp only [List.mem_eraseDups]
  split
  · rfl
  · rename_i hmem
    exact (List.count_eq_zero_of_not_mem hmem).symm

/-- If a skip set takes in another one, then a walk that skips its fields comes to some of the
    nodes that the other walk comes to, by the same paths and in the same order.  Its listing of
    the kinds is a part of the other one in the same order, it counts no kind more often and
    measures no greater depth. -/
theorem traverse_skipMore (family : Family) {skipped skippedMore : List Value}
    (hskip : ∀ name : Value, name.memberOf skipped = true → name.memberOf skippedMore = true)
    {root : Value} (hnode : (Adapter.mk family skipped).isNode root = true)
    (hseparate : (Adapter.mk family skipped).SeparateBelow root) (tally : Option Tally)
    (depth : Option Nat) (own : σ) :
    let fewer : Adapter := ⟨family, skipped⟩
    let more : Adapter := ⟨family, skippedMore⟩
    ((more.stops root).map Stop.position).Sublist ((fewer.stops root).map Stop.position) ∧
    (∃ kinds left : List String,
      (listKinds root (.list []) fewer).outcome = .ok (some .listing) ∧
      (listKinds root (.list []) fewer).own.own = kinds.map .str ∧
      (listKinds root (.list []) more).outcome = .ok (some .listing) ∧
      (listKinds root (.list []) more).own.own = left.map .str ∧
      left.Sublist kinds) ∧
    (∃ counts left : Tally,
      (traverse root (countKinds : Step σ ε Tally) tally own fewer).outcome = .ok (some counts) ∧
      (traverse root (countKinds : Step σ ε Tally) tally own more).outcome = .ok (some left) ∧
      ∀ kind, (left.lookup kind).getD 0 ≤ (counts.lookup kind).getD 0) ∧
    ∃ levels left : Nat,
      (traverse root (maxDepth : Step σ ε Nat) depth own fewer).outcome = .ok (some levels) ∧
      (traverse root (maxDepth : Step σ ε Nat) depth own more).outcome = .ok (some left) ∧
      left ≤ levels := by
  intro fewer more
  have h : more.SkipsMore fewer := ⟨rfl, hskip⟩
  have hnode' : more.isNode root = true := (h.isNode_eq root).trans hnode
  have hseparate' : more.SeparateBelow root := h.separateBelow hseparate
  have hfewer : (some fewer).getD (.default root) = fewer := rfl
  have hmore : (some more).getD (.default root) = more := rfl
  -- Listing, counts and depth are all told by the stops, so each follows from the first part.
  refine ⟨Adapter.sublist_position_stops h root, ?_, ?_, ?_⟩
  · obtain ⟨kinds, hkinds⟩ := Adapter.exists_kindsAt_eq hnode
    obtain ⟨left, hleft⟩ := Adapter.exists_kindsAt_eq hnode'
    obtain ⟨houtcome, hlisted⟩ := listKinds_eq hfewer hnode [] none
    obtain ⟨houtcome', hlisted'⟩ := listKinds_eq hmore hnode' [] none
    have hitems : ∀ kinds : List String,
        [] ++ (kinds.map some).map kindItem = kinds.map Value.str :=
      fun kinds => by rw [List.map_map]; rfl
    have hsub := h.sublist_kindsAt root
    rw [hkinds, hleft] at hsub
    rw [hkinds, hitems] at hlisted
    rw [hleft, hitems] at hlisted'
    refine ⟨kinds, left, houtcome, hlisted, houtcome', hlisted', ?_⟩
    simpa [List.filterMap_map] using hsub.filterMap id
  · have hcounts := countKinds_eq (σ := σ) (ε := ε) hfewer hnode hseparate tally own
    have hleft := countKinds_eq (σ := σ) (ε := ε) hmore hnode' hseparate' tally own
    refine ⟨_, _, congrArg Ending.outcome hcounts, congrArg Ending.outcome hleft, ?_⟩
    intro kind
    rw [Tally.lookup_ofKinds, Tally.lookup_ofKinds]
    exact (h.sublist_kindsAt root).count_le kind
  · have hlevels := traverse_gathers (maxDepth_gathers (σ := σ) (ε := ε)) hfewer hnode hseparate
      depth own
    have hleft := traverse_gathers (maxDepth_gathers (σ := σ) (ε := ε)) hmore hnode' hseparate'
      depth own
    exact ⟨_, _, congrArg Ending.outcome hlevels, congrArg Ending.outcome hleft, h.depth_le root⟩

/-- In the program with the name `x` the locations are skipped, or the body as well: without the
    body the name is neither listed nor counted.  In the syntax tree of `lambda: 1 + 2` nothing is
    skipped, or the body of whatever has one: only the outermost node is left. -/
theorem traverse_skipMore_locatedName :
    let counted (a : Adapter) (root : Value) :=
      traverse root (countKinds : Step Unit Unit Tally) none () a
    let fewer : Adapter := .tagged "type" [.str "loc"]
    let more : Adapter := .tagged "type" [.str "body", .str "loc"]
    let all : Adapter := .source
    let bodiless : Adapter := .source [.str "body"]
    ((∀ name : Value, name.memberOf [.str "loc"] = true →
        name.memberOf [.str "body", .str "loc"] = true) ∧
      fewer.isNode locatedName = true ∧ fewer.SeparateBelow locatedName ∧
      ∃ counts left : Tally, (counted fewer locatedName).outcome = .ok (some counts) ∧
        (counted more locatedName).outcome = .ok (some left) ∧
        (∀ kind, (left.lookup kind).getD 0 ≤ (counts.lookup kind).getD 0) ∧
        counts = [(some "Program", 1), (some "Identifier", 1)] ∧ left = [(some "Program", 1)]) ∧
    (∀ name : Value, name.memberOf [] = true → name.memberOf [.str "body"] = true) ∧
      all.isNode lambdaSum = true ∧ all.SeparateBelow lambdaSum ∧
      ∃ counts left : Tally, (counted all lambdaSum).outcome = .ok (some counts) ∧
        (counted bodiless lambdaSum).outcome = .ok (some left) ∧
        (∀ kind, (left.lookup kind).getD 0 ≤ (counts.lookup kind).getD 0) ∧
        counts = [(some "Expression", 1), (some "Lambda", 1), (some "arguments", 1),
          (some "BinOp", 1), (some "Constant", 2), (some "Add", 1)] ∧
        left = [(some "Expression", 1)] := by
  intro counted fewer more all bodiless
  constructor
  · have hskip : ∀ name : Value, name.memberOf [.str "loc"] = true →
        name.memberOf [.str "body", .str "loc"] = true := by
      intro name hname
      simp only [Value.memberOf, List.any_cons, List.any_nil, Bool.or_false] at hname ⊢
      rw [hname, Bool.or_true]
    have hnode : fewer.isNode locatedName = true := by decide +kernel
    have hkeys : locatedName.SeparateKeys := by
      simp [locatedName, Value.SeparateKeys, Value.EveryRecord, Value.EveryRecordEntries,
        Value.EveryRecordItems, Value.sameKey_str]
    have hseparate := fewer.separateBelow_of_separateKeys hkeys
    obtain ⟨-, -, ⟨counts, left, hcounts, hleft, hle⟩, -⟩ :=
      traverse_skipMore (σ := Unit) (ε := Unit) (.tagged "type") hskip hnode hseparate none none ()
    -- The two counts are computed, and the theorem compares them.
    have hcounts' : (counted fewer locatedName).outcome.toOption =
        some (some [(some "Program", 1), (some "Identifier", 1)]) := by decide +kernel
    have hleft' : (counted more locatedName).outcome.toOption =
        some (some [(some "Program", 1)]) := by decide +kernel
    have hcounted : (counted fewer locatedName).outcome = .ok (some counts) := hcounts
    have hcountedLeft : (counted more locatedName).outcome = .ok (some left) := hleft
    rw [hcounted] at hcounts'
    rw [hcountedLeft] at hleft'
    exact ⟨hskip, hnode, hseparate, counts, left, hcounted, hcountedLeft, hle,
      Option.some.inj (Option.some.inj hcounts'), Option.some.inj (Option.some.inj hleft')⟩
  · have hskip : ∀ name : Value, name.memberOf [] = true → name.memberOf [.str "body"] = true := by
      intro name hname
      cases hname
    have hnode : all.isNode lambdaSum = true := by decide +kernel
    have hseparate := all.separateBelow_of_separateKeys separateKeys_lambdaSum
    obtain ⟨-, -, ⟨counts, left, hcounts, hleft, hle⟩, -⟩ :=
      traverse_skipMore (σ := Unit) (ε := Unit) .source hskip hnode hseparate none none ()
    have hcounts' : (counted all lambdaSum).outcome.toOption =
        some (some [(some "Expression", 1), (some "Lambda", 1), (some "arguments", 1),
          (some "BinOp", 1), (some "Constant", 2), (some "Add", 1)]) := by decide +kernel
    have hleft' : (counted bodiless lambdaSum).outcome.toOption =
        some (some [(some "Expression", 1)]) := by decide +kernel
    have hcounted : (counted all lambdaSum).outcome = .ok (some counts) := hcounts
    have hcountedLeft : (counted bodiless lambdaSum).outcome = .ok (some left) := hleft
    rw [hcounted] at hcounts'
    rw [hcountedLeft] at hleft'
    exact ⟨hskip, hnode, hseparate, counts, left, hcounted, hcountedLeft, hle,
      Option.some.inj (Option.some.inj hcounts'), Option.some.inj (Option.some.inj hleft')⟩

end TreeWalk
