import TreeWalk.Proofs.Gathering
import TreeWalk.Rules

/-! # The listing of the results

A step that is resumed may list the results of the children.  The listing goes through the
fields and takes apart whatever is the results of a sequence: what the walk has gathered for a
list or tuple, but also what a child that is held directly may have given as its own result.
Where no such child gave one, the listing is the record of the visits one level down: one
result for each, in the order in which the children were visited.

## Key results

* `VisitAll.exists_visits` reads the visits of the children of a node off the turns one level
  below it.
* `VisitAll.results_ofVisits` says what is listed of the results that a step is resumed with,
  visit by visit.
* `history_listed` says so of whole walks.
* `Rules.childResults?_snapshot` says that a described step lists the values that the listing
  of a dictionary gives, which knows the results of a sequence by their type alone.
-/

namespace TreeWalk

variable {σ ε α : Type}

/-! ## The turns at a depth -/

/-- The turns that are taken at a depth, in order. -/
def turnsAt (depth : Nat) (moments : List (Moment ε α)) : List (Moment ε α) :=
  moments.filter fun m => m.turn?.any fun turn => turn.2.length == depth

/-- The visit whose result a moment shows, with the path, the node and the result: a call does
    so if the step finished at once, otherwise the resumption does. -/
def Moment.given? : Moment ε α → Option (List PathEntry × Value × Option α)
  | .called node path _ (.finished result) => some (path, node, result)
  | .resumed node path _ (.finished (some result)) => some (path, node, some result)
  | _ => none

/-- The turns at a depth in moments one after the other. -/
@[simp] theorem turnsAt_append (depth : Nat) (xs ys : List (Moment ε α)) :
    turnsAt depth (xs ++ ys) = turnsAt depth xs ++ turnsAt depth ys :=
  List.filter_append ..

/-- The lines about an entry are no turns. -/
@[simp] theorem turnsAt_entryLines (depth : Nat) (a : Adapter)
    (verbosity : Option VerbositySetting) (path : List PathEntry) (node : Value) :
    turnsAt depth (entryLines a verbosity path node : List (Moment ε α)) = [] :=
  filter_loggedLines (fun _ => rfl) ..

/-- A call is a turn at the depth of its path. -/
@[simp] theorem turnsAt_called (node : Value) (path : List PathEntry) (acc : Option α)
    (answer : Answer ε α) (rest : List (Moment ε α)) :
    turnsAt path.length (.called node path acc answer :: rest) =
      .called node path acc answer :: turnsAt path.length rest := by
  simp [turnsAt, Moment.turn?]

/-- A resumption is a turn at the depth of its path. -/
@[simp] theorem turnsAt_resumed (node : Value) (path : List PathEntry) (children : Children α)
    (reply : Reply ε α) :
    turnsAt path.length [(.resumed node path children reply : Moment ε α)] =
      [.resumed node path children reply] := by
  simp [turnsAt, Moment.turn?]

/-- There are no turns at a depth at which none is taken. -/
theorem turnsAt_eq_nil {depth : Nat} {moments : List (Moment ε α)}
    (h : ∀ turn ∈ taken moments, turn.2.length ≠ depth) : turnsAt depth moments = [] := by
  refine List.filter_eq_nil_iff.mpr ?_
  intro m hm hany
  obtain ⟨turn, hturn, hlength⟩ := (Option.any_eq_true _ _).mp hany
  exact h turn (List.mem_filterMap.mpr ⟨m, hm, hturn⟩) (by simpa using hlength)

variable {a : Adapter} {verbosity : Option VerbositySetting}

/-- While the children of a node are visited no turn is taken at the depth of the node. -/
theorem VisitAll.turnsAt_length_eq_nil {path : List PathEntry} {acc : Option α} {node : Value}
    {children : List (Slot × Value)} {moments : List (Moment ε α)}
    {fin : Except (Failure ε) (List (Slot × Option α))}
    (h : VisitAll a verbosity path node acc children moments fin)
    (hchildren : a.children? node = some children) : turnsAt path.length moments = [] := by
  obtain ⟨rest, hschedule, -⟩ := h.turns_prefix (isNode_of_mem_children? hchildren)
  refine turnsAt_eq_nil ?_
  -- The path of a turn goes through one of the children, so it is longer.
  intro turn hturn
  have hmem : turn ∈ taken (turns moments ++ rest) := by
    rw [taken_append, taken_turns]
    exact List.mem_append_left _ hturn
  obtain ⟨child, -, hprefix⟩ := hschedule.path_prefix turn hmem
  have hlength := hprefix.length_le
  rw [List.length_append, List.length_singleton] at hlength
  omega

/-- A visit that ends normally takes one or two turns at its own depth: a call that finished, or
    the call and the resumption of a step that suspended. -/
theorem Visit.turnsAt_length {path : List PathEntry} {acc result : Option α} {node : Value}
    {moments : List (Moment ε α)} (h : Visit a verbosity path acc node moments (.ok result)) :
    turnsAt path.length moments = [.called node path acc (.finished result)] ∨
      ∃ yielded children value, result = some value ∧
        turnsAt path.length moments = [.called node path acc (.suspended yielded),
          .resumed node path children (.finished (some value))] := by
  generalize hfin : Except.ok result = fin at h
  -- Of the ways in which a visit goes, only those are left that end normally.
  cases h with
  | failed e => cases hfin
  | sealed answer hanswer hchildren => cases hfin
  | interrupted yielded failure hchildren hinner => cases hfin
  | finished result' hchildren hinner =>
    obtain ⟨visits, -, rfl⟩ := exists_of_map_eq_ok hfin.symm
    left
    simp [hinner.turnsAt_length_eq_nil hchildren]
  | @resumed _ _ _ _ _ visits _ _ yielded hchildren hinner hafter =>
    cases hafter with
    | finished value =>
      refine .inr ⟨yielded, Children.ofVisits visits, value, Except.ok.inj hfin, ?_⟩
      simp [hinner.turnsAt_length_eq_nil hchildren]
    | failed e => cases hfin
    | missing => cases hfin
    | closeFailed e => cases hfin
    | closed => cases hfin

/-- At its own depth a visit that ends normally makes one call and gives one result. -/
theorem Visit.turnsAt_own {path : List PathEntry} {acc result : Option α} {node : Value}
    {moments : List (Moment ε α)} (h : Visit a verbosity path acc node moments (.ok result)) :
    (turnsAt path.length moments).filterMap Moment.calledAt = [(path, node)] ∧
      (turnsAt path.length moments).filterMap Moment.given? = [(path, node, result)] := by
  -- A step that suspended gives nothing when it is called, and its resumption calls nothing.
  rcases h.turnsAt_length with hturns | ⟨yielded, children, value, rfl, hturns⟩
  · rw [hturns]
    exact ⟨rfl, rfl⟩
  · rw [hturns]
    exact ⟨rfl, rfl⟩

/-! ## The visits of the children -/

/-- The visit of a child: the child with its place, and the result. -/
structure ChildVisit (α : Type) where
  slot : Slot
  child : Value
  result : Option α

/-- What the moments between the suspension and the resumption of a step show of the visits of
    the children: there is one for each child, in the order of fields and items.  In this order
    the children are called one level down, and in this order they give their results. -/
structure ShowsVisits (a : Adapter) (node : Value) (path : List PathEntry)
    (moments : List (Moment ε α)) (visits : List (ChildVisit α)) : Prop where
  children : a.children? node = some (visits.map fun visit => (visit.slot, visit.child))
  called : (turnsAt (path.length + 1) moments).filterMap Moment.calledAt =
    visits.map fun visit => (path ++ [visit.slot.entry node], visit.child)
  given : (turnsAt (path.length + 1) moments).filterMap Moment.given? =
    visits.map fun visit => (path ++ [visit.slot.entry node], visit.child, visit.result)

/-- Children that have all been visited were called one level down, one after the other, and
    gave the results of their visits in this order. -/
theorem VisitAll.exists_visits {path : List PathEntry} {parent : Value} {acc : Option α}
    {children : List (Slot × Value)} {moments : List (Moment ε α)}
    {results : List (Slot × Option α)}
    (h : VisitAll a verbosity path parent acc children moments (.ok results)) :
    ∃ visits : List (ChildVisit α),
      children = visits.map (fun visit => (visit.slot, visit.child)) ∧
      results = visits.map (fun visit => (visit.slot, visit.result)) ∧
      (turnsAt (path.length + 1) moments).filterMap Moment.calledAt =
        visits.map (fun visit => (path ++ [visit.slot.entry parent], visit.child)) ∧
      (turnsAt (path.length + 1) moments).filterMap Moment.given? =
        visits.map (fun visit => (path ++ [visit.slot.entry parent], visit.child, visit.result)) := by
  induction children generalizing moments results with
  | nil =>
    cases h with
    | nil => exact ⟨[], rfl, rfl, rfl, rfl⟩
  | cons first rest ih =>
    generalize hfin : Except.ok results = fin at h
    cases h with
    | failed slot child _ hfirst => cases hfin
    | @cons _ _ _ part others result ended slot child _ hfirst hothers =>
      obtain ⟨results', rfl, rfl⟩ := exists_of_map_eq_ok hfin.symm
      obtain ⟨visits, rfl, rfl, hcalled, hgiven⟩ := ih hothers
      -- What the first child shows at its own depth stands in front of what the others show.
      have hlength : (path ++ [slot.entry parent]).length = path.length + 1 := by simp
      obtain ⟨hcall, hresult⟩ := hfirst.turnsAt_own
      rw [hlength] at hcall hresult
      refine ⟨⟨slot, child, result⟩ :: visits, rfl, rfl, ?_, ?_⟩
      · rw [turnsAt_append, List.filterMap_append, hcall, hcalled]
        rfl
      · rw [turnsAt_append, List.filterMap_append, hresult, hgiven]
        rfl

/-- Listing what is gathered from the visits of the children of a node goes through the results
    in the order of the visits, if no two fields are one key. -/
theorem VisitAll.results_ofVisits {path : List PathEntry} {node : Value} {acc : Option α}
    {children : List (Slot × Value)} {moments : List (Moment ε α)}
    {visits : List (Slot × Option α)}
    (h : VisitAll a verbosity path node acc children moments (.ok visits))
    (hchildren : a.children? node = some children)
    (hseparate : ∀ fields, a.fields? node = some fields →
      fields.Pairwise fun field later => field.1.sameKey later.1 = false)
    (parts : α → Option (List (Option α))) :
    (Children.ofVisits visits).results parts =
      visits.flatMap fun visit => Children.listed parts visit.1.index visit.2 := by
  obtain ⟨fields, hfields, -⟩ := Option.map_eq_some_iff.mp hchildren
  have hslots := Adapter.nodup_slots hchildren (Adapter.distinctNames_of_separate hseparate)
  -- The places are distinct, so each place tells its result.
  obtain ⟨result, rfl, -⟩ := h.exists_results hslots
  rw [Adapter.map_fst_children? hfields hchildren,
    Children.ofVisits_fields a result (hseparate fields hfields),
    Children.results_eq_flatMap_located parts node, Children.located_contribution,
    List.flatMap_map, List.flatMap_map]
  refine List.flatMap_congr ?_
  intro slot _
  exact Children.listed_map parts Int.ofNat slot.index (result slot)

/-- What the call and the resumption of a step enclose shows the visits that are listed. -/
theorem EnclosesVisits.exists_showsVisits {node : Value} {path : List PathEntry}
    {past : List (Moment ε α)} {children : Children α} {reply : Reply ε α}
    (h : EnclosesVisits a verbosity past (.resumed node path children reply))
    (hseparate : ∀ fields, a.fields? node = some fields →
      fields.Pairwise fun field later => field.1.sameKey later.1 = false)
    (parts : α → Option (List (Option α))) :
    ∃ before acc yielded inner visits,
      past = before ++ .called node path acc (.suspended yielded) :: inner ∧
      ShowsVisits a node path inner visits ∧
      children.results parts =
        visits.flatMap fun visit => Children.listed parts visit.slot.index visit.result := by
  obtain ⟨before, acc, yielded, inner, nodes, results, hpast, hnodes, hvisits, hchildren⟩ := h
  have hlisted := hvisits.results_ofVisits hnodes hseparate parts
  obtain ⟨visits, rfl, rfl, hcalled, hgiven⟩ := hvisits.exists_visits
  refine ⟨before, acc, yielded, inner, visits, hpast, ⟨hnodes, hcalled, hgiven⟩, ?_⟩
  rw [hchildren, hlisted, List.flatMap_map]

/-- Where no result of a child that is held directly is made of parts, nothing is taken
    apart. -/
theorem Children.flatMap_listed {parts : α → Option (List (Option α))}
    {visits : List (ChildVisit α)}
    (h : ∀ visit ∈ visits, visit.slot.index = none →
      ∀ result, visit.result = some result → parts result = none) :
    (visits.flatMap fun visit => listed parts visit.slot.index visit.result) =
      visits.map ChildVisit.result := by
  rw [List.map_eq_flatMap]
  refine List.flatMap_congr ?_
  intro visit hmem
  exact listed_eq_singleton (h visit hmem)

/-! ## Whole walks -/

/-- If a dictionary tells the fields of every node apart, then every step that is resumed, also
    in a walk that fails later, lists exactly the results of the visits of its children, one for
    each child and in the order of the visits, unless a child that is held directly gave a
    result that is made of parts.  Such a result, and no other one, is taken apart. -/
theorem history_listed (root : Value) (step : Step σ ε α) (init : Option α) (own : σ)
    (adapter : Option Adapter) (logger : Option (Logger σ))
    (hseparate : (adapter.getD (.default root)).SeparateBelow root)
    (parts : α → Option (List (Option α))) :
    let a := adapter.getD (.default root)
    ∀ past node path children reply after,
      history root step init own adapter logger =
        past ++ .resumed node path children reply :: after →
      ∃ before acc yielded inner visits,
        past = before ++ .called node path acc (.suspended yielded) :: inner ∧
        ShowsVisits a node path inner visits ∧
        children.results parts =
          visits.flatMap (fun visit => Children.listed parts visit.slot.index visit.result) ∧
        ((∀ visit ∈ visits, visit.slot.index = none →
            ∀ result, visit.result = some result → parts result = none) →
          children.results parts = visits.map ChildVisit.result ∧
          ∀ nodes, a.children? node = some nodes →
            (children.results parts).length = nodes.length) := by
  intro a past node path children reply after hmoments
  have hencloses : Throughout (EnclosesVisits a (logger.map Logger.verbosity)) [] _ :=
    (visit_history root step init own adapter logger).1.enclosesVisits
  have hplaced := history_placed root step init own adapter logger
  -- The moment is split off the walk, and what is known of the walk before it says the rest.
  rw [hmoments] at hencloses hplaced
  have hreach : a.Reaches root path node := hplaced.split.1
  obtain ⟨before, acc, yielded, inner, visits, hpast, hshows, hlisted⟩ :=
    hencloses.split.exists_showsVisits (fun fields => hseparate path node fields hreach) parts
  refine ⟨before, acc, yielded, inner, visits, hpast, hshows, hlisted, ?_⟩
  intro hwhole
  have hresults : children.results parts = visits.map ChildVisit.result :=
    hlisted.trans (Children.flatMap_listed hwhole)
  refine ⟨hresults, ?_⟩
  intro nodes hnodes
  obtain rfl := Option.some.inj (hshows.children.symm.trans hnodes)
  rw [hresults, List.length_map, List.length_map]

/-- Rules for a labelled block: one item of its list gives the results of a sequence, the other
    one nothing, the label its kind, and the block lists what they gave. -/
def listingRules : List Rules.Rule :=
  [{ condition := { kind := some (.str "Block") }, form := .twoPhase, result := .results },
    { condition := { kind := some (.str "A") }
      result := .const (.record .results [(.int 0, .int 1), (.int 1, .int 2)] []) },
    { condition := { kind := some (.str "B") }, result := .absent },
    { condition := { kind := some (.str "Name") }, result := .kind }]

/-- Whether a moment shows a child that is held directly to give a result made of parts. -/
def Moment.givesParts (parts : α → Option (List (Option α))) (m : Moment ε α) : Bool :=
  match m.given? with
  | some (path, _, some result) =>
    (path.getLast?.bind PathEntry.index).isNone && (parts result).isSome
  | _ => false

/-- What a resumption has to list, every result with the name of its type. -/
def Moment.listing : Moment ε Datum → Option (List (Option String))
  | .resumed _ _ children _ =>
    some ((children.results Datum.parts?).map (Option.map Datum.typeName))
  | _ => none

/-- A visit of a child that is held directly gives a result made of parts only if some moment
    shows it. -/
theorem ShowsVisits.parts_eq_none {node : Value} {path : List PathEntry}
    {moments : List (Moment ε α)} {visits : List (ChildVisit α)}
    (h : ShowsVisits a node path moments visits) {parts : α → Option (List (Option α))}
    (hnone : ∀ m ∈ moments, m.givesParts parts = false) :
    ∀ visit ∈ visits, visit.slot.index = none →
      ∀ result, visit.result = some result → parts result = none := by
  intro visit hvisit hindex result hresult
  have hgiven : (path ++ [visit.slot.entry node], visit.child, visit.result) ∈
      (turnsAt (path.length + 1) moments).filterMap Moment.given? := by
    rw [h.given]
    exact List.mem_map_of_mem hvisit
  obtain ⟨m, hm, hshown⟩ := List.mem_filterMap.mp hgiven
  have hfalse := hnone m (List.mem_of_mem_filter hm)
  simpa [Moment.givesParts, hshown, hresult, Slot.entry, hindex] using hfalse

/-- The block of the document is resumed with what its three children gave: the results of a
    sequence in one piece, nothing, and a text. -/
theorem history_listed_labelledBlock :
    Adapter.tagged.SeparateBelow labelledBlock ∧ ∃ past node path children reply after,
      history labelledBlock (Rules.step listingRules) none {} none none =
          past ++ .resumed node path children reply :: after ∧
        (∃ before acc yielded inner visits,
          past = before ++ .called node path acc (.suspended yielded) :: inner ∧
          ShowsVisits .tagged node path inner visits ∧
          children.results Datum.parts? = visits.map ChildVisit.result) ∧
        (children.results Datum.parts?).map (Option.map Datum.typeName) =
          [some "SequenceResults", none, some "str"] := by
  have hseparate : Adapter.tagged.SeparateBelow labelledBlock := by
    apply Adapter.separateBelow_of_separateKeys
    simp [labelledBlock, Value.SeparateKeys, Value.EveryRecord, Value.EveryRecordEntries,
      Value.EveryRecordItems, Value.sameKey_str]
  -- The resumption is found by computation, and so is that no result of the walk has parts.
  have hany : ∃ m ∈ history labelledBlock (Rules.step listingRules) none {} none none,
      m.listing = some [some "SequenceResults", none, some "str"] := by
    decide +kernel
  have hnone : ∀ m ∈ history labelledBlock (Rules.step listingRules) none {} none none,
      m.givesParts Datum.parts? = false := by
    decide +kernel
  obtain ⟨m, hmem, hm⟩ := hany
  obtain ⟨past, after, hmoments⟩ := List.append_of_mem hmem
  cases m with
  | resumed node path children reply =>
    obtain ⟨before, acc, yielded, inner, visits, hpast, hshows, -, hwhole⟩ :=
      history_listed labelledBlock (Rules.step listingRules) none {} none none hseparate
        Datum.parts? past node path children reply after hmoments
    have hdirect := hshows.parts_eq_none fun m hm => hnone m (by
      rw [hmoments, hpast]
      simp [hm])
    exact ⟨hseparate, past, node, path, children, reply, after, hmoments,
      ⟨before, acc, yielded, inner, visits, hpast, hshows, (hwhole hdirect).1⟩,
      Option.some.inj hm⟩
  | logged line => cases hm
  | called node path acc answer => cases hm
  | closed node path failure => cases hm

/-! ## Listing by type -/

namespace Datum

/-- A datum is told by what it is as a result. -/
theorem ofOption_toOption (d : Datum) : ofOption d.toOption = d := by
  unfold toOption
  split <;> rfl

/-- The fields of a record are resolved one by one. -/
theorem resolveFields_eq_map (lists : Nat → Value) (entries : List (Value × Datum)) :
    resolveFields lists entries = entries.map fun entry => (entry.1, entry.2.resolve lists) := by
  induction entries with
  | nil => rfl
  | cons entry rest ih => rw [resolveFields, ih, List.map_cons]

/-- The positions of a list are resolved one by one. -/
theorem resolvePositions_eq_map (lists : Nat → Value) (entries : List (Nat × Datum)) :
    resolvePositions lists entries =
      entries.map fun entry => (.int entry.1, entry.2.resolve lists) := by
  induction entries with
  | nil => rfl
  | cons entry rest ih => rw [resolvePositions, ih, List.map_cons]

/-- The value of a datum is made of the values of its parts. -/
theorem parts?_resolve {lists : Nat → Value} (hlists : ∀ list, (lists list).parts? = none)
    (d : Datum) :
    (d.resolve lists).parts? =
      d.parts?.map fun parts => parts.map fun part => some ((ofOption part).resolve lists) := by
  cases d with
  | plain value =>
    cases value with
    | record holder entries aside =>
      cases holder <;> simp [resolve, parts?, Value.parts?, ofOption_toOption]
    | _ => rfl
  | shared list => simp [resolve, parts?, hlists list]
  | byField entries => rfl
  | byPosition entries =>
    simp [resolve, parts?, Value.parts?, resolvePositions_eq_map, ofOption_toOption]

end Datum

/-- Results of children are listed as the values are that stand for what the fields
    contributed. -/
theorem Rules.map_results_resolve {lists : Nat → Value}
    (hlists : ∀ list, (lists list).parts? = none) (children : Children Datum) :
    (Children.results Value.parts? (children.map fun field =>
        (field.1, .single (some ((ofField field.2).resolve lists))))).map (·.getD .null) =
      (children.results Datum.parts?).map fun result => (Datum.ofOption result).resolve lists := by
  unfold Children.results
  rw [List.flatMap_map, List.map_flatMap, List.map_flatMap]
  refine List.flatMap_congr ?_
  intro ⟨name, contributed⟩ _
  cases contributed with
  | sequence results =>
    simp [ofField, Datum.resolve, Value.parts?, Datum.resolvePositions_eq_map]
  | single result =>
    cases result with
    | none => rfl
    | some d =>
      -- The value of the result is taken apart exactly if the result is.
      have hparts := Datum.parts?_resolve hlists d
      cases hd : d.parts? with
      | none => simp [ofField, Datum.ofOption, hparts, hd]
      | some parts => simp [ofField, Datum.ofOption, hparts, hd]

/-- The values of the results that a described step lists are those that are listed of the
    dictionary of the results, where nothing but its type tells the results of a sequence from
    the result of a child. -/
theorem Rules.childResults?_snapshot (lists : ListStore) (children : Children Datum) :
    (lists.snapshot (ofChildren children)).childResults? =
      some ((resultsOf (some children)).map lists.snapshot) := by
  have hlists : ∀ list, (ListStore.listValue lists (lists.size + 1) list).parts? = none :=
    fun _ => rfl
  have hresults := map_results_resolve hlists children
  unfold ListStore.snapshot ofChildren Value.childResults?
  rw [Datum.resolve, Datum.resolveFields_eq_map, List.map_map]
  -- The dictionary is read as one result for each of its keys.
  show some ((Children.results _ (List.map _ (List.map _ _))).map _) = _
  rw [List.map_map, resultsOf, List.map_map]
  exact congrArg some hresults

end TreeWalk
