import TreeWalk.Proofs.Declarations
import TreeWalk.Proofs.LogLines
import TreeWalk.Proofs.Summaries

/-! # Walks of loaded documents

Whatever a file holds, once it has been loaded its kinds can be listed and counted and its depth
measured.  Collecting its scopes is another matter.  A variable declaration is taken for what a
parser would make of it: what stands in the field for the declarators is gone through and recorded
as it is, and a document may have anything there.

## Key results

* `Value.declaratorItems_eq_error_iff` says which declarators cannot be gone through.
* `Walker.error_of_visit` finds the node at which a walk that collects scopes fails.
* `Document.walks_of_load` says how the walks of a loaded document end and what they record. -/

namespace TreeWalk

/-! ## Declarators of any shape -/

namespace Value

/-- Whether a value can be gone through. -/
def isIterable : Value → Bool
  | .group .. | .str _ | .bytes _ => true
  | .record holder _ _ => holder.isMapping
  | .null | .bool _ | .int _ | .float _ | .date _ => false

/-- What going through the declarators of a node gives; a field that is missing or counts as false
    gives nothing. -/
def declaratorItems (node : Value) : Except Scopes.NotIterable (List Value) :=
  match node.lookup "declarations" with
  | some value => if value.isTrue then Scopes.items value else .ok []
  | none => .ok []

/-- Going through a value fails, with the name of its type, if it cannot be gone through. -/
theorem items_eq (value : Value) : if value.isIterable = true
    then ∃ items, Scopes.items value = .ok items
    else Scopes.items value = .error ⟨value.typeName⟩ := by
  cases value with
  | record holder entries aside =>
    unfold isIterable Scopes.items
    by_cases h : holder.isMapping = true
    · simp [h]
    · simp [h]
  | group shape items => exact ⟨items, rfl⟩
  | str s => exact ⟨_, rfl⟩
  | bytes data => exact ⟨_, rfl⟩
  | _ => rfl

/-- The declarators cannot be gone through if the field holds something that counts as true and
    is no group, text or mapping. -/
theorem declaratorItems_eq_error_iff {node : Value} {error : Scopes.NotIterable} :
    node.declaratorItems = .error error ↔ ∃ value, node.lookup "declarations" = some value ∧
      value.isTrue = true ∧ value.isIterable = false ∧ error = ⟨value.typeName⟩ := by
  unfold declaratorItems
  constructor
  · intro h
    cases hlookup : node.lookup "declarations" with
    | none =>
      rw [hlookup] at h
      cases h
    | some value =>
      simp only [hlookup] at h
      -- A true value gives its items, or it is none to go through; a false one stands for none.
      by_cases htrue : value.isTrue = true
      · rw [if_pos htrue] at h
        have hitems := value.items_eq
        by_cases hiterable : value.isIterable = true
        · rw [if_pos hiterable, h] at hitems
          obtain ⟨items, hitems⟩ := hitems
          cases hitems
        · rw [if_neg hiterable, h] at hitems
          exact ⟨value, rfl, htrue, Bool.eq_false_iff.mpr hiterable, Except.error.inj hitems⟩
      · rw [if_neg htrue] at h
        cases h
  · rintro ⟨value, hlookup, htrue, hiterable, rfl⟩
    have hitems := value.items_eq
    rw [hiterable] at hitems
    simp only [hlookup, htrue, ↓reduceIte]
    exact hitems

end Value

/-- A variable declaration declares its declarators, and another node itself if it declares a
    function or a class. -/
theorem Scopes.declared_eq (kind : String) (node : Value) :
    declared kind node = if kind = "VariableDeclaration" then node.declaratorItems
      else .ok (if isDeclaration kind = true then [node] else []) := by
  unfold declared Value.declaratorItems
  -- A declaration of variables is the only one that does not record itself.
  by_cases hkind : kind = "VariableDeclaration"
  · have hitself : isDeclaration "VariableDeclaration" = false := by decide +kernel
    subst hkind
    simp only [hitself, BEq.rfl, Bool.false_eq_true, ↓reduceIte, List.nil_append]
    cases hlookup : node.lookup "declarations" with
    | none => rfl
    | some value =>
      by_cases htrue : value.isTrue = true
      · simp only [htrue, ↓reduceIte]
        cases items value <;> rfl
      · simp only [htrue, Bool.false_eq_true, ↓reduceIte]
        rfl
  · simp only [beq_eq_false_iff_ne.mpr hkind, Bool.false_eq_true, ↓reduceIte, hkind]
    cases isDeclaration kind <;> rfl

/-! ## Where a walk fails -/

namespace Walker

variable {a : Adapter}

mutual

/-- A visit fails at a node whose declarations cannot be gone through, if all fields can be
    listed. -/
theorem error_of_visit : ∀ (tree : Tree) (node : Value), a.view node = tree →
    a.reads node = true → ∀ (address : List Nat) (path : List PathEntry) (scope : Nat)
      (store : ScopeStore) (failure : Failure Scopes.NotIterable) (s : WalkState ScopeStore),
      (scopeWalker a).visit tree (some scope) ⟨path, store⟩ = .error failure s →
      ∃ stop ∈ tree.stops address path, ∃ error,
        Scopes.declared (stop.kind a) stop.node = .error error ∧ failure = .step error
  | .sealed value, node, hview, hreads, address, path, scope, store, failure, s, hvisit => by
    rw [Adapter.reads_of_view_eq_sealed hview] at hreads
    cases hreads
  | .node value kind trees, node, hview, hreads, address, path, scope, store, failure, s,
      hvisit => by
    obtain ⟨rfl, -, children, hchildren, htrees⟩ := Adapter.of_view_eq_node hview
    set p : Placement := ⟨⟨address, path, value⟩, scope, store.size⟩
    rw [Tree.stops]
    -- Either the entries of the node itself cannot be gone through, or the visits below it failed.
    cases hdeclared : Scopes.declared (p.stop.kind a) p.stop.node with
    | error error =>
      have hended := visit_notIterable hdeclared scope store kind trees
      rw [hended] at hvisit
      obtain ⟨rfl, -⟩ := EStateM.Result.error.inj hvisit
      exact ⟨p.stop, List.mem_cons_self, error, hdeclared, rfl⟩
    | ok declarations =>
      have hended := visit_passable (p := p) rfl hdeclared kind trees
      rw [hended] at hvisit
      cases hinner : (scopeWalker a).visitAll p.stop.node trees (some (p.inner a))
          ⟨p.stop.path, p.settle a store⟩ with
      | ok results t =>
        rw [hinner] at hvisit
        cases hvisit
      | error failure' t =>
        rw [hinner] at hvisit
        obtain ⟨rfl, -⟩ := EStateM.Result.error.inj hvisit
        obtain ⟨stop, hstop, herror⟩ := error_of_visitAll value trees children htrees
          (fun child hmem => ((Adapter.mem_children?_iff hchildren).mp hmem).1) address path 0 _ _
          failure' t hinner
        exact ⟨stop, List.mem_cons_of_mem _ hstop, herror⟩

/-- The visits of children fail only at a node below them whose entries cannot be gone through. -/
theorem error_of_visitAll (parent : Value) : ∀ (trees : List (Slot × Tree))
    (children : List (Slot × Value)),
    children.map (fun child => (child.1, a.view child.2)) = trees →
    (∀ child ∈ children, a.isNode child.2 = true) →
    ∀ (address : List Nat) (path : List PathEntry) (i scope : Nat) (store : ScopeStore)
      (failure : Failure Scopes.NotIterable) (s : WalkState ScopeStore),
      (scopeWalker a).visitAll parent trees (some scope) ⟨path, store⟩ = .error failure s →
      ∃ stop ∈ Tree.stopsAll address path parent i trees, ∃ error,
        Scopes.declared (stop.kind a) stop.node = .error error ∧ failure = .step error
  | [], children, hview, hnodes, address, path, i, scope, store, failure, s, hvisits => by
    cases hvisits
  | (slot, tree) :: trees, children, hview, hnodes, address, path, i, scope, store, failure, s,
      hvisits => by
    obtain ⟨⟨place, child⟩, rest, rfl, hhead, hrest⟩ := List.map_eq_cons_iff.mp hview
    obtain ⟨rfl, hchild⟩ := Prod.mk.inj hhead
    rw [visitAll_cons] at hvisits
    rw [Tree.stopsAll]
    cases hfirst : (scopeWalker a).visit tree (some scope) ⟨path ++ [place.entry parent], store⟩ with
    | error failure' t =>
      rw [hfirst] at hvisits
      obtain ⟨rfl, -⟩ := EStateM.Result.error.inj hvisits
      obtain ⟨stop, hstop, herror⟩ := error_of_visit tree child hchild
        (Adapter.reads_of_isNode (hnodes _ List.mem_cons_self)) (address ++ [i])
        (path ++ [place.entry parent]) scope store failure' t hfirst
      exact ⟨stop, List.mem_append_left _ hstop, herror⟩
    | ok result t =>
      have hpass := passable_of_visit tree child hchild (address ++ [i])
        (path ++ [place.entry parent]) scope store result t hfirst
      -- The first visit has followed its ledger, so it left the path as it was.
      have hended := visit_collectScopes tree child hchild (address ++ [i])
        (path ++ [place.entry parent]) scope store hpass
      obtain ⟨-, rfl⟩ := EStateM.Result.ok.inj (hfirst.symm.trans hended)
      rw [hfirst] at hvisits
      simp only [List.dropLast_concat] at hvisits
      cases hothers : (scopeWalker a).visitAll parent trees (some scope) ⟨path, settleAll a
          (tree.ledger a (address ++ [i]) (path ++ [place.entry parent]) scope store.size) store⟩ with
      | ok others t =>
        rw [hothers] at hvisits
        cases hvisits
      | error failure' t =>
        rw [hothers] at hvisits
        obtain ⟨rfl, -⟩ := EStateM.Result.error.inj hvisits
        obtain ⟨stop, hstop, herror⟩ := error_of_visitAll parent trees rest hrest
          (fun child hmem => hnodes child (List.mem_cons_of_mem _ hmem)) address path (i + 1) scope
          _ failure' t hothers
        exact ⟨stop, List.mem_append_right _ hstop, herror⟩

end

end Walker

/-- A walk that collects scopes below a node fails only at a node whose declarations cannot be gone
    through. -/
theorem error_of_collectScopes {root : Value} {adapter : Option Adapter} {a : Adapter}
    (ha : adapter.getD (.default root) = a) (hnode : a.isNode root = true) {s : Nat}
    {store : ScopeStore} {failure : Failure Scopes.NotIterable}
    (h : (traverse root collectScopes (some s) store adapter).outcome = .error failure) :
    ∃ stop ∈ a.stops root, ∃ error,
      Scopes.declared (stop.kind a) stop.node = .error error ∧ failure = .step error := by
  subst ha
  rw [traverse_eq] at h
  cases hvisit : (traverseWalker root collectScopes adapter none).visit
      ((adapter.getD (.default root)).view root) (some s) ⟨[], store⟩ with
  | ok result t =>
    rw [hvisit] at h
    cases h
  | error failure' t =>
    rw [hvisit] at h
    obtain rfl := Except.error.inj h
    exact Walker.error_of_visit _ root rfl (Adapter.reads_of_isNode hnode) [] [] s store failure' t
      hvisit

/-- Whatever a walk below a node comes to is a node. -/
theorem Adapter.isNode_of_mem_stops {a : Adapter} {root : Value} (hnode : a.isNode root = true)
    {stop : Stop} (hstop : stop ∈ a.stops root) : a.isNode stop.node = true := by
  have hreach : a.Reaches root stop.path stop.node :=
    (a.exists_stop_iff root _ _).mp ⟨stop, hstop, rfl⟩
  generalize stop.path = path at hreach
  generalize stop.node = node at hreach
  cases hreach with
  | root => exact hnode
  | child _ hchild => exact hchild.1

/-! ## Loaded documents -/

/-- The nodes of a document that are variable declarations. -/
def Document.Declares (d : Document) (node : Value) : Prop :=
  d.adapter.kindOf node = some "VariableDeclaration" ∧ ∃ path, d.adapter.Reaches d.root path node

/-- A stop has a kind that is not empty just if its node has. -/
theorem Stop.kind_eq_iff {a : Adapter} {stop : Stop} {kind : String} (h : kind ≠ "") :
    stop.kind a = kind ↔ a.kindOf stop.node = some kind := by
  unfold Stop.kind
  cases a.kindOf stop.node with
  | none => simp [h.symm]
  | some name => simp

namespace Document

variable {d : Document}

/-- The stops of a document at a variable declaration. -/
theorem declares_iff {node : Value} : d.Declares node ↔
    ∃ stop ∈ d.adapter.stops d.root, stop.kind d.adapter = "VariableDeclaration" ∧
      stop.node = node := by
  constructor
  · rintro ⟨hkind, path, hreach⟩
    obtain ⟨stop, hstop, hposition⟩ := (d.adapter.exists_stop_iff d.root path node).mpr hreach
    obtain ⟨-, rfl⟩ := Prod.mk.inj hposition
    exact ⟨stop, hstop, (Stop.kind_eq_iff (by decide)).mpr hkind, rfl⟩
  · rintro ⟨stop, hstop, hkind, rfl⟩
    exact ⟨(Stop.kind_eq_iff (by decide)).mp hkind, stop.path,
      (d.adapter.exists_stop_iff d.root _ _).mp ⟨stop, hstop, rfl⟩⟩

/-- The walk that collects the scopes of a document ends normally if all declarators can be gone
    through, and otherwise fails with what going through some of them gives. -/
theorem collectScopes_cases (hnode : d.adapter.isNode d.root = true) :
    let walk := traverse d.root collectScopes (some 0) (#[{}] : ScopeStore) d.adapter
    ((∀ node, d.Declares node → ∃ items, node.declaratorItems = .ok items) ∧
      walk.outcome = .ok (some 0)) ∨
    ∃ node error, d.Declares node ∧ node.declaratorItems = .error error ∧
      walk.outcome = .error (.step error) := by
  intro walk
  have hstore : 0 < (#[{}] : ScopeStore).size := by decide
  obtain ⟨hiff, hended⟩ := traverse_collectScopes d.root d.adapter hstore
  simp only [Option.getD_some] at hiff hended
  -- The outcome decides; a failure is that of the step at a stop.
  cases houtcome : walk.outcome with
  | ok result =>
    have hpass := hiff.mpr ⟨result, houtcome⟩
    refine .inl ⟨?_, ?_⟩
    · intro node hdeclares
      obtain ⟨stop, hstop, hkind, rfl⟩ := declares_iff.mp hdeclares
      obtain ⟨-, items, hitems⟩ := hpass stop hstop
      rw [Scopes.declared_eq, if_pos hkind] at hitems
      exact ⟨items, hitems⟩
    · rw [← houtcome]
      exact (hended hpass).1
  | error failure =>
    obtain ⟨stop, hstop, error, herror, rfl⟩ := error_of_collectScopes
      (a := d.adapter) rfl hnode houtcome
    rw [Scopes.declared_eq] at herror
    by_cases hkind : stop.kind d.adapter = "VariableDeclaration"
    · rw [if_pos hkind] at herror
      exact .inr ⟨stop.node, error, declares_iff.mpr ⟨stop, hstop, hkind, rfl⟩, herror, rfl⟩
    · -- Nothing but declarators has to be gone through.
      rw [if_neg hkind] at herror
      cases herror

/-- What the walk records is nodes just if going through the declarators gives nothing else. -/
theorem entries_collectScopes (hnode : d.adapter.isNode d.root = true) :
    let walk := traverse d.root collectScopes (some 0) (#[{}] : ScopeStore) d.adapter
    walk.outcome = .ok (some 0) →
    ((∀ k, ∀ entry ∈ (walk.own.scope k).declarations, d.adapter.isNode entry = true) ↔
      ∀ node items, d.Declares node → node.declaratorItems = .ok items →
        ∀ item ∈ items, d.adapter.isNode item = true) := by
  intro walk houtcome
  have hstore : 0 < (#[{}] : ScopeStore).size := by decide
  obtain ⟨hiff, hended⟩ := traverse_collectScopes d.root d.adapter hstore
  simp only [Option.getD_some] at hiff hended
  obtain ⟨-, hsettled⟩ := hended (hiff.mpr ⟨some 0, houtcome⟩)
  have hledger := d.adapter.isLedger_ledger d.root hstore
  set ledger := d.adapter.ledger d.root 0 (#[{}] : ScopeStore).size
  have hstop : ∀ p ∈ ledger, p.stop ∈ d.adapter.stops d.root := by
    intro p hp
    rw [← hledger.stops_eq]
    exact List.mem_map_of_mem hp
  have hempty : ∀ k, (ScopeStore.scope #[{}] k).declarations = [] := by
    intro k
    cases k <;> rfl
  have hentries : ∀ k, (walk.own.scope k).declarations =
      ledger.flatMap fun p => p.declaredIn d.adapter k := by
    intro k
    rw [hsettled.declarations_eq k, hempty k, List.nil_append]
  constructor
  · intro hall node items hdeclares hitems item hitem
    obtain ⟨stop, hmem, hkind, rfl⟩ := declares_iff.mp hdeclares
    rw [← hledger.stops_eq] at hmem
    obtain ⟨p, hp, rfl⟩ := List.mem_map.mp hmem
    -- The declarators are recorded in the scope that the declaration stands in.
    apply hall p.scope
    rw [hentries]
    refine List.mem_flatMap.mpr ⟨p, hp, ?_⟩
    have hdeclared : p.stop.declared d.adapter = items := by
      unfold Stop.declared
      rw [Scopes.declared_eq, if_pos hkind, hitems]
      rfl
    unfold Placement.declaredIn
    rw [if_pos rfl, hdeclared]
    exact List.mem_append_left _ hitem
  · intro hall k entry hentry
    rw [hentries] at hentry
    obtain ⟨p, hp, hentry⟩ := List.mem_flatMap.mp hentry
    have hself : d.adapter.isNode p.stop.node = true :=
      Adapter.isNode_of_mem_stops hnode (hstop p hp)
    unfold Placement.declaredIn at hentry
    rcases List.mem_append.mp hentry with hentry | hentry
    · obtain ⟨-, hentry⟩ := List.mem_ite_nil_right.mp hentry
      unfold Stop.declared at hentry
      rw [Scopes.declared_eq] at hentry
      by_cases hkind : p.stop.kind d.adapter = "VariableDeclaration"
      · rw [if_pos hkind] at hentry
        cases hitems : p.stop.node.declaratorItems with
        | error error =>
          rw [hitems] at hentry
          cases hentry
        | ok items =>
          rw [hitems] at hentry
          exact hall p.stop.node items (declares_iff.mpr ⟨p.stop, hstop p hp, hkind, rfl⟩) hitems
            entry hentry
      · rw [if_neg hkind] at hentry
        obtain ⟨-, hentry⟩ := List.mem_ite_nil_right.mp hentry
        rw [List.mem_singleton.mp hentry]
        exact hself
    · obtain ⟨-, hentry⟩ := List.mem_ite_nil_right.mp hentry
      unfold Stop.declaredInside at hentry
      obtain ⟨-, hentry⟩ := List.mem_ite_nil_right.mp hentry
      rw [List.mem_singleton.mp hentry]
      exact hself

/-- The walks of a document that has been loaded with readers that make dictionaries of objects.
    Its kinds are listed and counted and its depth is measured without a failure.  Its scopes are
    collected if the declarators of all variable declarations can be gone through, and otherwise
    the walk fails with what going through some of them gives.  Everything that is recorded in a
    scope is a node just if going through the declarators gives nothing but nodes. -/
theorem walks_of_load {readers : Readers} (hreaders : readers.Lawful)
    {find : String → Option FileEntry} {path tagField : String} {skip : List Value}
    {adapter : Option Adapter} (h : load readers find path tagField skip adapter = .ok d)
    (verbosity : Option VerbositySetting) :
    let collected := traverseLogged d.root collectScopes (some 0) (#[{}] : ScopeStore) d.adapter
      verbosity
    (listKinds d.root (.list []) d.adapter verbosity).outcome = .ok (some .listing) ∧
    (∃ counts, (traverse d.root (countKinds : Step Unit Empty Tally) none () d.adapter).outcome =
      .ok (some counts)) ∧
    (∃ depth, (traverse d.root (maxDepth : Step Unit Empty Nat) none () d.adapter).outcome =
      .ok (some depth)) ∧
    ((∀ node, d.Declares node → ∃ items, node.declaratorItems = .ok items) →
      collected.outcome = .ok (some 0)) ∧
    (∀ node error, d.Declares node → node.declaratorItems = .error error →
      ∃ node' error', d.Declares node' ∧ node'.declaratorItems = .error error' ∧
        collected.outcome = .error (.step error')) ∧
    (collected.outcome = .ok (some 0) →
      ((∀ k, ∀ entry ∈ (collected.own.own.scope k).declarations, d.adapter.isNode entry = true) ↔
        ∀ node items, d.Declares node → node.declaratorItems = .ok items →
          ∀ item ∈ items, d.adapter.isNode item = true)) := by
  intro collected
  obtain ⟨hnode, -⟩ := of_load_eq_ok h
  have hseparate := separateBelow_of_load hreaders h
  have hadapter : (some d.adapter).getD (.default d.root) = d.adapter := rfl
  -- A log changes neither the outcome nor what is recorded.
  obtain ⟨houtcome, hown⟩ : collected.outcome = _ ∧ collected.own.own = _ :=
    traverseLogged_eq d.root collectScopes (some 0) (#[{}] : ScopeStore) d.adapter verbosity
  have hcounts := countKinds_eq (σ := Unit) (ε := Empty) hadapter hnode hseparate none ()
  have hdepth := traverse_gathers (maxDepth_gathers (σ := Unit) (ε := Empty)) hadapter hnode
    hseparate none ()
  refine ⟨(listKinds_eq hadapter hnode [] verbosity).1, ⟨_, congrArg Ending.outcome hcounts⟩,
    ⟨_, congrArg Ending.outcome hdepth⟩, ?_, ?_, ?_⟩
  · intro hall
    rw [houtcome]
    rcases collectScopes_cases hnode with ⟨-, hok⟩ | ⟨node, error, hdeclares, herror, -⟩
    · exact hok
    · obtain ⟨items, hitems⟩ := hall node hdeclares
      rw [hitems] at herror
      cases herror
  · intro node error hdeclares herror
    rcases collectScopes_cases hnode with ⟨hall, -⟩ | ⟨node', error', hdeclares', herror', hfailed⟩
    · obtain ⟨items, hitems⟩ := hall node hdeclares
      rw [hitems] at herror
      cases herror
    · exact ⟨node', error', hdeclares', herror', houtcome.trans hfailed⟩
  · intro hok
    rw [hown]
    exact entries_collectScopes hnode (houtcome.symm.trans hok)

end Document

/-- A file with the given text, under every name. -/
def fileOf (text : String) : String → Option FileEntry := fun _ =>
  some (.file (text.toList.map fun c => UInt8.ofNat c.toNat))

/-- A variable declaration with one declarator, as text. -/
def declaredText : String :=
  "\x7b\"type\": \"VariableDeclaration\", \"declarations\": " ++
    "[\x7b\"type\": \"VariableDeclarator\"\x7d]\x7d"

namespace Document

/-- The scopes of a variable declaration with one declarator are collected, and what is recorded
    is a node. -/
theorem walks_of_load_declaredText :
    ∃ d, load .standard (fileOf declaredText) "t.json" = .ok d ∧
      let collected := traverseLogged d.root collectScopes (some 0) (#[{}] : ScopeStore) d.adapter
      collected.outcome = .ok (some 0) ∧ (collected.own.own.scope 0).declarations.length = 1 ∧
        ∀ k, ∀ entry ∈ (collected.own.own.scope k).declarations, d.adapter.isNode entry = true := by
  -- What the theorem asks for is decided by computation, for the stops are finitely many.
  have hloaded : (load .standard (fileOf declaredText) "t.json").toOption.map (fun d =>
      ((d.adapter.stops d.root).all fun stop => match stop.node.declaratorItems with
        | .ok items => items.all d.adapter.isNode
        | .error _ => false,
      ((traverseLogged d.root collectScopes (some 0) (#[{}] : ScopeStore)
        d.adapter).own.own.scope 0).declarations.length)) = some (true, 1) := by
    decide +kernel
  cases hload : load .standard (fileOf declaredText) "t.json" with
  | error error =>
    rw [hload] at hloaded
    cases hloaded
  | ok d =>
    rw [hload] at hloaded
    obtain ⟨hstops, hlength⟩ := Prod.mk.inj (Option.some.inj hloaded)
    have hitems : ∀ node, d.Declares node → ∃ items, node.declaratorItems = .ok items ∧
        ∀ item ∈ items, d.adapter.isNode item = true := by
      intro node hdeclares
      obtain ⟨stop, hstop, -, rfl⟩ := declares_iff.mp hdeclares
      have hstop' := List.all_eq_true.mp hstops stop hstop
      cases h : stop.node.declaratorItems with
      | error error => simp [h] at hstop'
      | ok items =>
        rw [h] at hstop'
        exact ⟨items, rfl, List.all_eq_true.mp hstop'⟩
    obtain ⟨-, -, -, hcollected, -, hentries⟩ := walks_of_load Readers.lawful_standard hload none
    have hok := hcollected fun node hdeclares => by
      obtain ⟨items, hnode, -⟩ := hitems node hdeclares
      exact ⟨items, hnode⟩
    refine ⟨d, rfl, hok, hlength, (hentries hok).mpr ?_⟩
    intro node items hdeclares hnode
    obtain ⟨items', hnode', hall⟩ := hitems node hdeclares
    rw [hnode] at hnode'
    rw [Except.ok.inj hnode']
    exact hall

end Document

/-- A variable declaration with a number in place of its declarators, as text. -/
def numberedText : String :=
  "\x7b\"type\": \"VariableDeclaration\", \"declarations\": 5\x7d"

/-- A variable declaration with a number among its declarators, as text. -/
def mixedText : String :=
  "\x7b\"type\": \"VariableDeclaration\", \"declarations\": [1]\x7d"

namespace Document

/-- A number in place of the declarators ends the walk; a number among them is recorded. -/
theorem not_collected_numberedText :
    (∃ d, load .standard (fileOf numberedText) "t.json" = .ok d ∧
      (traverse d.root collectScopes (some 0) (#[{}] : ScopeStore) d.adapter).outcome =
        .error (.step ⟨"int"⟩)) ∧
    ∃ d, load .standard (fileOf mixedText) "t.json" = .ok d ∧
      let collected := traverse d.root collectScopes (some 0) (#[{}] : ScopeStore) d.adapter
      collected.outcome = .ok (some 0) ∧
        ∃ entry ∈ (collected.own.scope 0).declarations, d.adapter.isNode entry = false := by
  -- Both walks are computed whole, with no theorem about walks.
  have hnumbered : (load .standard (fileOf numberedText) "t.json").toOption.map (fun d =>
      (failure? (traverse d.root collectScopes (some 0) (#[{}] : ScopeStore)
        d.adapter).outcome).bind Failure.stepError?) = some (some ⟨"int"⟩) := by
    decide +kernel
  have hmixed : (load .standard (fileOf mixedText) "t.json").toOption.map (fun d =>
      let collected := traverse d.root collectScopes (some 0) (#[{}] : ScopeStore) d.adapter
      (collected.outcome.toOption,
        (collected.own.scope 0).declarations.all d.adapter.isNode)) =
      some (some (some 0), false) := by
    decide +kernel
  constructor
  · cases hload : load .standard (fileOf numberedText) "t.json" with
    | error error =>
      rw [hload] at hnumbered
      cases hnumbered
    | ok d =>
      rw [hload] at hnumbered
      exact ⟨d, rfl, Failure.eq_error_of_stepError? (Option.some.inj hnumbered)⟩
  · cases hload : load .standard (fileOf mixedText) "t.json" with
    | error error =>
      rw [hload] at hmixed
      cases hmixed
    | ok d =>
      rw [hload] at hmixed
      obtain ⟨houtcome, hentries⟩ := Prod.mk.inj (Option.some.inj hmixed)
      refine ⟨d, rfl, ?_, ?_⟩
      · cases hended : (traverse d.root collectScopes (some 0) (#[{}] : ScopeStore)
            d.adapter).outcome with
        | error failure =>
          rw [hended] at houtcome
          cases houtcome
        | ok result =>
          rw [hended] at houtcome
          exact congrArg _ (Option.some.inj houtcome)
      · obtain ⟨entry, hentry, hnode⟩ := List.all_eq_false.mp hentries
        exact ⟨entry, hentry, Bool.eq_false_iff.mpr hnode⟩

end Document

end TreeWalk
