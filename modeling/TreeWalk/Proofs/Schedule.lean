import TreeWalk.Proofs.Names
import TreeWalk.Proofs.Route
import TreeWalk.Steps.Folding

/-! # The schedule of a walk

A walk takes turns at the nodes of the tree: it calls the step at a node, goes
through the children in order, and comes back to resume the step if it had
suspended.  `Schedule` says so by recursion on the document, with nothing about
accumulators, failures or states of the steps.

## Key results

* `Visit.turns_prefix` says that a visit keeps to the schedule as far as it gets,
  and completes it if it ends normally.
* `Schedule.exists_block` finds the schedule of every node that a walk reaches in
  one piece inside that of the root.
* `Visit.nodup_taken` says that no turn is taken twice, however a walk ends.
* `traverse_schedule` is the schedule of a whole walk.
-/

namespace TreeWalk

variable {σ ε α : Type}

/-! ## Turns -/

/-- The two turns of a step at a node. -/
inductive Turn where
  | call
  | resumption
  deriving DecidableEq, Repr

namespace Moment

/-- The turn that a moment is, with the path it is taken at, if it is one. -/
def turn? : Moment ε α → Option (Turn × List PathEntry)
  | .called _ path _ _ => some (.call, path)
  | .resumed _ path _ _ => some (.resumption, path)
  | .logged _ | .closed .. => none

/-- Whether the moment is a call or a resumption of the step. -/
def isTurn (m : Moment ε α) : Bool :=
  m.turn?.isSome

end Moment

/-- The calls and resumptions among some moments. -/
def turns (moments : List (Moment ε α)) : List (Moment ε α) :=
  moments.filter Moment.isTurn

/-- The turns in moments one after the other. -/
@[simp] theorem turns_append (xs ys : List (Moment ε α)) :
    turns (xs ++ ys) = turns xs ++ turns ys :=
  List.filter_append ..

/-- A call is a turn. -/
@[simp] theorem turns_called (node : Value) (path : List PathEntry) (acc : Option α)
    (answer : Answer ε α) (rest : List (Moment ε α)) :
    turns (.called node path acc answer :: rest) =
      .called node path acc answer :: turns rest :=
  rfl

/-- Lines that are logged are no turns. -/
@[simp] theorem turns_loggedLines (verbosity : Option VerbositySetting) (severity : Severity)
    (message : String) :
    turns (loggedLines verbosity severity message : List (Moment ε α)) = [] :=
  filter_loggedLines (fun _ => rfl) ..

/-- The lines about an entry are no turns. -/
@[simp] theorem turns_entryLines (a : Adapter) (verbosity : Option VerbositySetting)
    (path : List PathEntry) (node : Value) :
    turns (entryLines a verbosity path node : List (Moment ε α)) = [] :=
  turns_loggedLines ..

/-- The lines about a breach are no turns. -/
@[simp] theorem turns_breachLines (a : Adapter) (verbosity : Option VerbositySetting)
    (path : List PathEntry) (node : Value) (breach : Breach) :
    turns (breachLines a verbosity path node breach : List (Moment ε α)) = [] :=
  turns_loggedLines ..

/-- A resumption is one turn, whatever comes of it. -/
theorem Resumption.turns_eq {a : Adapter} {verbosity : Option VerbositySetting}
    {path : List PathEntry} {node : Value} {children : Children α} {moments : List (Moment ε α)}
    {fin : Except (Failure ε) (Option α)}
    (h : Resumption a verbosity path node children moments fin) :
    ∃ reply, turns moments = [.resumed node path children reply] := by
  -- However it goes on, the step has been resumed once.
  cases h with
  | failed e => exact ⟨.failed e, rfl⟩
  | finished result => exact ⟨.finished (some result), rfl⟩
  | missing =>
    refine ⟨.finished none, ?_⟩
    show .resumed .. :: turns (breachLines ..) = _
    rw [turns_breachLines]
  | closeFailed e => exact ⟨.suspended, rfl⟩
  | closed =>
    refine ⟨.suspended, ?_⟩
    show .resumed .. :: turns (breachLines ..) = _
    rw [turns_breachLines]

/-! ## The schedule -/

mutual

/-- The turns at a node and below it: its call, the turns of its children, and its
    resumption exactly if it had suspended. -/
inductive Schedule (a : Adapter) : List PathEntry → Value → List (Moment ε α) → Prop where
  | unsuspended {path node children inner} (acc : Option α) (answer : Answer ε α)
      (hanswer : ∀ yielded, answer ≠ .suspended yielded)
      (hchildren : a.children? node = some children)
      (hinner : ScheduleAll a path node children inner) :
      Schedule a path node (.called node path acc answer :: inner)
  | suspended {path node children inner} (acc yielded : Option α) (results : Children α)
      (reply : Reply ε α) (hchildren : a.children? node = some children)
      (hinner : ScheduleAll a path node children inner) :
      Schedule a path node (.called node path acc (.suspended yielded) ::
        (inner ++ [.resumed node path results reply]))

/-- The turns of the children of a node, one child after the other. -/
inductive ScheduleAll (a : Adapter) :
    List PathEntry → Value → List (Slot × Value) → List (Moment ε α) → Prop where
  | nil {path parent} : ScheduleAll a path parent [] []
  | cons {path parent first others} (slot : Slot) (child : Value)
      (rest : List (Slot × Value))
      (hfirst : Schedule a (path ++ [slot.entry parent]) child first)
      (hrest : ScheduleAll a path parent rest others) :
      ScheduleAll a path parent ((slot, child) :: rest) (first ++ others)

end

variable {a : Adapter} {root : Value}

mutual

/-- Every node has a schedule. -/
private theorem exists_schedule_view : ∀ (tree : Tree) (path : List PathEntry) (node : Value),
    a.view node = tree → a.isNode node = true →
      ∃ moments : List (Moment ε α), Schedule a path node moments
  | .sealed _, path, node, hview, hnode => by
    obtain ⟨children, hchildren⟩ := Adapter.exists_children?_of_isNode hnode
    rw [Adapter.view_eq, hchildren] at hview
    cases hview
  | .node _ _ trees, path, node, hview, hnode => by
    obtain ⟨children, hchildren⟩ := Adapter.exists_children?_of_isNode hnode
    rw [Adapter.view_eq, hchildren] at hview
    obtain ⟨-, -, htrees⟩ := Tree.node.inj hview
    -- A schedule in which no step suspends itself is good enough.
    have hnodes : ∀ child ∈ children, a.isNode child.2 = true :=
      fun child hmem => ((Adapter.mem_children?_iff hchildren).mp hmem).1
    obtain ⟨inner, hinner⟩ := exists_scheduleAll_view trees path node children htrees hnodes
    exact ⟨_, .unsuspended none (.finished none) (by simp) hchildren hinner⟩

/-- There is a schedule for children that are nodes. -/
private theorem exists_scheduleAll_view : ∀ (trees : List (Slot × Tree))
    (path : List PathEntry) (parent : Value) (children : List (Slot × Value)),
    children.map (fun child => (child.1, a.view child.2)) = trees →
    (∀ child ∈ children, a.isNode child.2 = true) →
      ∃ moments : List (Moment ε α), ScheduleAll a path parent children moments
  | [], path, parent, children, hview, _ => by
    obtain rfl := List.map_eq_nil_iff.mp hview
    exact ⟨[], .nil⟩
  | (_, tree) :: trees, path, parent, children, hview, hnodes => by
    obtain ⟨⟨slot, child⟩, rest, rfl, hhead, hrest⟩ := List.map_eq_cons_iff.mp hview
    obtain ⟨-, hchild⟩ := Prod.mk.inj hhead
    obtain ⟨first, hfirst⟩ := exists_schedule_view tree (path ++ [slot.entry parent]) child
      hchild (hnodes _ List.mem_cons_self)
    obtain ⟨others, hothers⟩ := exists_scheduleAll_view trees path parent rest hrest
      fun child hmem => hnodes child (List.mem_cons_of_mem _ hmem)
    exact ⟨first ++ others, .cons slot child rest hfirst hothers⟩

end

/-- Children that are nodes have a schedule. -/
theorem exists_scheduleAll (path : List PathEntry) (parent : Value)
    (children : List (Slot × Value)) (hnodes : ∀ child ∈ children, a.isNode child.2 = true) :
    ∃ moments : List (Moment ε α), ScheduleAll a path parent children moments :=
  exists_scheduleAll_view _ path parent children rfl hnodes

/-! ## Visits keep to the schedule -/

/-- A visit that ends normally is one of a node whose children can be listed. -/
theorem Visit.children?_ne_none {verbosity : Option VerbositySetting} {path : List PathEntry}
    {acc result : Option α} {node : Value} {moments : List (Moment ε α)}
    (h : Visit a verbosity path acc node moments (.ok result)) : a.children? node ≠ none := by
  generalize hfin : Except.ok result = fin at h
  cases h with
  | failed e => cases hfin
  | sealed answer hanswer hchildren => cases hfin
  | finished result hchildren hinner => simp [hchildren]
  | interrupted yielded failure hchildren hinner => cases hfin
  | resumed yielded hchildren hinner hafter => simp [hchildren]

/-- If the children of a node cannot be listed, its call is the only turn. -/
theorem Visit.turns_of_sealed {verbosity : Option VerbositySetting} {path : List PathEntry}
    {acc : Option α} {node : Value} {moments : List (Moment ε α)}
    {fin : Except (Failure ε) (Option α)} (h : Visit a verbosity path acc node moments fin)
    (hsealed : a.children? node = none) :
    ∃ answer, turns moments = [.called node path acc answer] := by
  -- A value that is not read has no children, so that nothing comes after its call.
  cases h with
  | failed e =>
    refine ⟨.failed e, ?_⟩
    rw [turns_append, turns_entryLines]
    rfl
  | sealed answer hanswer hchildren =>
    refine ⟨answer, ?_⟩
    rw [turns_append, turns_entryLines]
    rfl
  | finished result hchildren hinner => simp [hsealed] at hchildren
  | interrupted yielded failure hchildren hinner => simp [hsealed] at hchildren
  | resumed yielded hchildren hinner hafter => simp [hsealed] at hchildren

/-- The children of a node are nodes. -/
theorem isNode_of_mem_children? {node : Value} {children : List (Slot × Value)}
    (h : a.children? node = some children) : ∀ child ∈ children, a.isNode child.2 = true :=
  fun _ hmem => ((Adapter.mem_children?_iff h).mp hmem).1

mutual

/-- The turns of a visit are the schedule as far as the visit gets, and all of it if
    the visit ends normally. -/
theorem Visit.turns_prefix {verbosity : Option VerbositySetting} {path : List PathEntry}
    {acc : Option α} {node : Value} {moments : List (Moment ε α)}
    {fin : Except (Failure ε) (Option α)} (h : Visit a verbosity path acc node moments fin)
    (hreads : a.children? node ≠ none) : ∃ rest, Schedule a path node (turns moments ++ rest) ∧
      ∀ result, fin = .ok result → rest = [] := by
  match h with
  | .failed e =>
    obtain ⟨children, hchildren⟩ := Option.ne_none_iff_exists'.mp hreads
    obtain ⟨inner, hinner⟩ := exists_scheduleAll path node children
      (isNode_of_mem_children? hchildren)
    refine ⟨inner, ?_, by simp⟩
    rw [turns_append, turns_entryLines]
    exact .unsuspended acc (.failed e) (by simp) hchildren hinner
  | .sealed answer hanswer hchildren => exact absurd hchildren hreads
  | .finished result hchildren hinner =>
    obtain ⟨rest, hrest, hnil⟩ := hinner.turns_prefix (isNode_of_mem_children? hchildren)
    refine ⟨rest, ?_, ?_⟩
    · rw [turns_append, turns_entryLines, turns_called]
      exact .unsuspended acc (.finished result) (by simp) hchildren hrest
    · intro result' hfin
      obtain ⟨visits, hvisits, -⟩ := exists_of_map_eq_ok hfin
      exact hnil visits hvisits
  | .interrupted yielded failure hchildren hinner =>
    obtain ⟨rest, hrest, -⟩ := hinner.turns_prefix (isNode_of_mem_children? hchildren)
    -- The resumption is owed as well, whatever its reply would have been.
    refine ⟨rest ++ [.resumed node path [] (.finished none)], ?_, by simp⟩
    rw [turns_append, turns_entryLines, turns_called, List.nil_append, List.cons_append,
      ← List.append_assoc]
    exact .suspended acc yielded [] (.finished none) hchildren hrest
  | .resumed yielded hchildren hinner hafter =>
    obtain ⟨rest, hrest, hnil⟩ := hinner.turns_prefix (isNode_of_mem_children? hchildren)
    obtain ⟨reply, hreply⟩ := hafter.turns_eq
    refine ⟨[], ?_, fun _ _ => rfl⟩
    rw [hnil _ rfl, List.append_nil] at hrest
    rw [turns_append, turns_entryLines, turns_called, turns_append, hreply, List.append_nil,
      List.nil_append]
    exact .suspended acc yielded _ reply hchildren hrest
termination_by structural h

/-- The visits of children make the first turns of some schedule, and all of it if they end
    normally. -/
theorem VisitAll.turns_prefix {verbosity : Option VerbositySetting} {path : List PathEntry}
    {acc : Option α} {parent : Value} {children : List (Slot × Value)}
    {moments : List (Moment ε α)} {fin : Except (Failure ε) (List (Slot × Option α))}
    (h : VisitAll a verbosity path parent acc children moments fin)
    (hnodes : ∀ child ∈ children, a.isNode child.2 = true) :
    ∃ rest, ScheduleAll a path parent children (turns moments ++ rest) ∧
      ∀ results, fin = .ok results → rest = [] := by
  match h with
  | .nil => exact ⟨[], .nil, fun _ _ => rfl⟩
  | .failed slot child siblings hfirst =>
    have hreads : a.children? child ≠ none := by
      obtain ⟨children, hchildren⟩ :=
        Adapter.exists_children?_of_isNode (hnodes (slot, child) List.mem_cons_self)
      simp [hchildren]
    obtain ⟨rest, hrest, -⟩ := hfirst.turns_prefix hreads
    -- Nothing was done about the siblings, so all of their schedule is owed.
    obtain ⟨others, hothers⟩ := exists_scheduleAll path parent siblings
      fun sibling hmem => hnodes sibling (List.mem_cons_of_mem _ hmem)
    refine ⟨rest ++ others, ?_, by simp⟩
    rw [← List.append_assoc]
    exact .cons slot child siblings hrest hothers
  | .cons slot child siblings hfirst hothers =>
    obtain ⟨rest₁, hrest₁, hnil₁⟩ := hfirst.turns_prefix hfirst.children?_ne_none
    obtain ⟨rest₂, hrest₂, hnil₂⟩ := hothers.turns_prefix
      fun sibling hmem => hnodes sibling (List.mem_cons_of_mem _ hmem)
    rw [hnil₁ _ rfl, List.append_nil] at hrest₁
    refine ⟨rest₂, ?_, ?_⟩
    · rw [turns_append, List.append_assoc]
      exact .cons slot child siblings hrest₁ hrest₂
    · intro results hfin
      obtain ⟨visits, hvisits, -⟩ := exists_of_map_eq_ok hfin
      exact hnil₂ visits hvisits
termination_by structural h

end

/-- The turns of a visit that ends normally are the schedule. -/
theorem Visit.schedule {verbosity : Option VerbositySetting} {path : List PathEntry}
    {acc result : Option α} {node : Value} {moments : List (Moment ε α)}
    (h : Visit a verbosity path acc node moments (.ok result)) :
    Schedule a path node (turns moments) := by
  obtain ⟨rest, hrest, hnil⟩ := h.turns_prefix h.children?_ne_none
  rwa [hnil result rfl, List.append_nil] at hrest

/-! ## What a schedule holds -/

/-- The turns of a child stand together among those of the children. -/
private theorem ScheduleAll.exists_infix {path : List PathEntry} {parent : Value}
    {children : List (Slot × Value)} {moments : List (Moment ε α)}
    (h : ScheduleAll a path parent children moments) {slot : Slot} {child : Value}
    (hmem : (slot, child) ∈ children) :
    ∃ block, block <:+: moments ∧ Schedule a (path ++ [slot.entry parent]) child block := by
  induction children generalizing moments with
  | nil => cases hmem
  | cons sibling rest ih =>
    cases h with
    | @cons _ _ first others slot' child' _ hfirst hrest =>
      rcases List.mem_cons.mp hmem with heq | hmem
      · obtain ⟨rfl, rfl⟩ := Prod.mk.inj heq
        exact ⟨first, (List.prefix_append first others).isInfix, hfirst⟩
      · obtain ⟨block, hinfix, hblock⟩ := ih hrest hmem
        exact ⟨block, hinfix.trans (List.suffix_append first others).isInfix, hblock⟩

/-- The schedule of every node that a walk reaches stands in one piece inside that
    of the root. -/
theorem Schedule.exists_block {moments : List (Moment ε α)} (h : Schedule a [] root moments)
    {path : List PathEntry} {node : Value} (hreach : a.Reaches root path node) :
    ∃ block, block <:+: moments ∧ Schedule a path node block := by
  -- The induction is on the way to the node; the turns of a child stand among those of its parent.
  induction hreach with
  | root => exact ⟨moments, List.infix_rfl, h⟩
  | @child path node slot child hnode hchild ih =>
    obtain ⟨block, hinfix, hblock⟩ := ih
    cases hblock with
    | @unsuspended _ _ children inner acc answer hanswer hchildren hinner =>
      obtain ⟨part, hpart, hsched⟩ :=
        hinner.exists_infix ((Adapter.mem_children?_iff hchildren).mpr hchild)
      have hinner_infix : inner <:+: .called node path acc answer :: inner :=
        (List.suffix_cons _ inner).isInfix
      exact ⟨part, (hpart.trans hinner_infix).trans hinfix, hsched⟩
    | @suspended _ _ children inner acc yielded results reply hchildren hinner =>
      obtain ⟨part, hpart, hsched⟩ :=
        hinner.exists_infix ((Adapter.mem_children?_iff hchildren).mpr hchild)
      have hinner_infix : inner <:+: .called node path acc (.suspended yielded) ::
          (inner ++ [.resumed node path results reply]) :=
        ⟨[.called node path acc (.suspended yielded)],
          [.resumed node path results reply], rfl⟩
      exact ⟨part, (hpart.trans hinner_infix).trans hinfix, hsched⟩

/-! ## No turn is taken twice -/

/-- The turns taken by some moments, each with its path. -/
def taken (moments : List (Moment ε α)) : List (Turn × List PathEntry) :=
  moments.filterMap Moment.turn?

/-- The turns taken in moments one after the other. -/
@[simp] theorem taken_append (xs ys : List (Moment ε α)) :
    taken (xs ++ ys) = taken xs ++ taken ys :=
  List.filterMap_append ..

/-- A call is a turn taken at its path. -/
@[simp] theorem taken_called (node : Value) (path : List PathEntry) (acc : Option α)
    (answer : Answer ε α) (rest : List (Moment ε α)) :
    taken (.called node path acc answer :: rest) = (.call, path) :: taken rest :=
  rfl

/-- A resumption is a turn taken at its path. -/
@[simp] theorem taken_resumed (node : Value) (path : List PathEntry) (children : Children α)
    (reply : Reply ε α) :
    taken [(.resumed node path children reply : Moment ε α)] = [(.resumption, path)] :=
  rfl

/-- Lists that extend one list by different entries are different. -/
theorem prefix_entry_inj {β : Type} {path p : List β} {e e' : β}
    (h : path ++ [e] <+: p) (h' : path ++ [e'] <+: p) : e = e' := by
  obtain ⟨t, rfl⟩ := h
  obtain ⟨t', heq⟩ := h'
  rw [List.append_assoc, List.append_assoc] at heq
  exact (List.cons.inj (List.append_cancel_left heq)).1.symm

/-- A path does not start with a longer one. -/
private theorem not_prefix_self {path : List PathEntry} {e : PathEntry} :
    ¬ path ++ [e] <+: path := by
  intro h
  have hlen := h.length_le
  rw [List.length_append, List.length_singleton] at hlen
  omega

mutual

/-- All turns of a schedule are taken at or below the node. -/
theorem Schedule.path_prefix {path : List PathEntry} {node : Value}
    {moments : List (Moment ε α)} (h : Schedule a path node moments) :
    ∀ turn ∈ taken moments, path <+: turn.2 := by
  -- The turns of the node itself are taken at its path, and the others below it.
  match h with
  | .unsuspended acc answer hanswer hchildren hinner =>
    have hbelow := hinner.path_prefix
    intro turn hturn
    rcases List.mem_cons.mp hturn with rfl | hturn
    · exact List.prefix_rfl
    · obtain ⟨child, -, hprefix⟩ := hbelow turn hturn
      exact (List.prefix_append path _).trans hprefix
  | .suspended acc yielded results reply hchildren hinner =>
    have hbelow := hinner.path_prefix
    intro turn hturn
    rw [taken_called, taken_append, taken_resumed] at hturn
    rcases List.mem_cons.mp hturn with rfl | hturn
    · exact List.prefix_rfl
    · rcases List.mem_append.mp hturn with hturn | hturn
      · obtain ⟨child, -, hprefix⟩ := hbelow turn hturn
        exact (List.prefix_append path _).trans hprefix
      · obtain rfl := List.mem_singleton.mp hturn
        exact List.prefix_rfl
termination_by structural h

/-- Every turn of children is taken at or below one of them. -/
theorem ScheduleAll.path_prefix {path : List PathEntry} {parent : Value}
    {children : List (Slot × Value)} {moments : List (Moment ε α)}
    (h : ScheduleAll a path parent children moments) :
    ∀ turn ∈ taken moments, ∃ child ∈ children, path ++ [child.1.entry parent] <+: turn.2 := by
  match h with
  | .nil => exact fun turn hturn => absurd hturn List.not_mem_nil
  | .cons slot child rest hfirst hrest =>
    have hfirst' := hfirst.path_prefix
    have hrest' := hrest.path_prefix
    intro turn hturn
    rw [taken_append] at hturn
    rcases List.mem_append.mp hturn with hturn | hturn
    · exact ⟨(slot, child), List.mem_cons_self, hfirst' turn hturn⟩
    · obtain ⟨sibling, hmem, hprefix⟩ := hrest' turn hturn
      exact ⟨sibling, List.mem_cons_of_mem _ hmem, hprefix⟩
termination_by structural h

end

/-- Below a node no turn is taken at the node itself. -/
private theorem ScheduleAll.not_taken {path : List PathEntry} {parent : Value}
    {children : List (Slot × Value)} {moments : List (Moment ε α)}
    (h : ScheduleAll a path parent children moments) (turn : Turn) :
    (turn, path) ∉ taken moments := by
  intro hturn
  obtain ⟨child, -, hprefix⟩ := h.path_prefix _ hturn
  exact not_prefix_self hprefix

mutual

/-- In a document with distinct keys no turn of a schedule is taken twice. -/
theorem Schedule.nodup_taken {path : List PathEntry} {node : Value}
    {moments : List (Moment ε α)} (h : Schedule a path node moments)
    (hreach : a.Reaches root path node)
    (hkeys : root.DistinctKeys) :
    (taken moments).Nodup := by
  -- No turn below the node is taken at its own path, so it is enough that those below differ.
  match h with
  | .unsuspended acc answer hanswer hchildren hinner =>
    have hbelow := hinner.nodup_taken hreach hkeys
      (Adapter.nodup_slots hchildren (hreach.distinctNames hkeys))
      fun slot child hmem => (Adapter.mem_children?_iff hchildren).mp hmem
    rw [taken_called]
    exact List.nodup_cons.mpr ⟨hinner.not_taken .call, hbelow⟩
  | .suspended acc yielded results reply hchildren hinner =>
    have hbelow := hinner.nodup_taken hreach hkeys
      (Adapter.nodup_slots hchildren (hreach.distinctNames hkeys))
      fun slot child hmem => (Adapter.mem_children?_iff hchildren).mp hmem
    have hcall := hinner.not_taken .call
    have hresumption := hinner.not_taken .resumption
    rw [taken_called, taken_append, taken_resumed, List.nodup_cons, List.nodup_append]
    refine ⟨by simpa using hcall, hbelow, by simp, ?_⟩
    intro turn hturn turn' hturn' heq
    obtain rfl := List.mem_singleton.mp hturn'
    exact hresumption (heq ▸ hturn)
termination_by structural h

/-- The turns of different children are taken at paths that differ where the children do. -/
theorem ScheduleAll.nodup_taken {path : List PathEntry} {parent : Value}
    {children : List (Slot × Value)} {moments : List (Moment ε α)}
    (h : ScheduleAll a path parent children moments) (hreach : a.Reaches root path parent)
    (hkeys : root.DistinctKeys)
    (hslots : (children.map Prod.fst).Nodup)
    (hchildren : ∀ slot child, (slot, child) ∈ children → a.IsChild parent slot child) :
    (taken moments).Nodup := by
  match h with
  | .nil => exact List.nodup_nil
  | .cons slot child rest hfirst hrest =>
    rw [List.map_cons, List.nodup_cons] at hslots
    have hfirst' := hfirst.nodup_taken
      (.child hreach (hchildren slot child List.mem_cons_self)) hkeys
    have hrest' := hrest.nodup_taken hreach hkeys hslots.2
      fun slot child hmem => hchildren slot child (List.mem_cons_of_mem _ hmem)
    rw [taken_append, List.nodup_append]
    refine ⟨hfirst', hrest', ?_⟩
    -- A turn of the first child and one of a sibling differ in the entry after `path`.
    intro turn hturn turn' hturn' heq
    have hprefix := hfirst.path_prefix turn hturn
    obtain ⟨sibling, hmem, hprefix'⟩ := hrest.path_prefix turn' hturn'
    rw [← heq] at hprefix'
    have hslot := Slot.entry_inj (prefix_entry_inj hprefix hprefix')
    have hin : sibling.1 ∈ rest.map Prod.fst := List.mem_map_of_mem hmem
    rw [← hslot] at hin
    exact hslots.1 hin
termination_by structural h

end

/-- What is taken depends on the turns only. -/
theorem taken_turns (moments : List (Moment ε α)) : taken (turns moments) = taken moments := by
  unfold taken turns
  rw [List.filterMap_filter]
  refine List.filterMap_congr ?_
  intro m _
  cases m with
  | logged line => rfl
  | called node path acc answer => rfl
  | resumed node path children reply => rfl
  | closed node path failure => rfl

/-- However the visit of the root ends, no turn is taken twice in it. -/
theorem Visit.nodup_taken {verbosity : Option VerbositySetting} {acc : Option α}
    {moments : List (Moment ε α)} {fin : Except (Failure ε) (Option α)}
    (h : Visit a verbosity [] acc root moments fin)
    (hkeys : root.DistinctKeys) :
    (taken moments).Nodup := by
  by_cases hreads : a.children? root = none
  · -- The children of the root cannot be listed, so its call is the only turn.
    obtain ⟨answer, hturns⟩ := h.turns_of_sealed hreads
    rw [← taken_turns, hturns]
    exact List.nodup_singleton _
  · obtain ⟨rest, hschedule, -⟩ := h.turns_prefix hreads
    have hnodup := hschedule.nodup_taken .root hkeys
    rw [taken_append, taken_turns] at hnodup
    exact (List.nodup_append.mp hnodup).1

/-- If no turn is taken twice, a turn and its path determine the moment. -/
theorem eq_of_turn?_eq {moments : List (Moment ε α)} (h : (taken moments).Nodup)
    {m m' : Moment ε α} (hm : m ∈ moments) (hm' : m' ∈ moments)
    {turn : Turn × List PathEntry} (hturn : m.turn? = some turn)
    (hturn' : m'.turn? = some turn) : m = m' := by
  have hmem : ∀ {rest : List (Moment ε α)} {n : Moment ε α}, n ∈ rest →
      n.turn? = some turn → turn ∈ taken rest :=
    fun hn hturn => List.mem_filterMap.mpr ⟨_, hn, hturn⟩
  induction moments with
  | nil => cases hm
  | cons first rest ih =>
    have hrest : (taken rest).Nodup :=
      h.sublist ((List.sublist_cons_self first rest).filterMap Moment.turn?)
    have hfresh : first.turn? = some turn → turn ∉ taken rest := by
      intro hfirst
      have hcons : taken (first :: rest) = turn :: taken rest := List.filterMap_cons_some hfirst
      rw [hcons] at h
      exact (List.nodup_cons.mp h).1
    -- Either both are the first moment, or it would be taken again in the rest.
    rcases List.mem_cons.mp hm with rfl | hin
    · rcases List.mem_cons.mp hm' with rfl | hin'
      · rfl
      · exact absurd (hmem hin' hturn') (hfresh hturn)
    · rcases List.mem_cons.mp hm' with rfl | hin'
      · exact absurd (hmem hin hturn) (hfresh hturn')
      · exact ih hrest hin hin'

/-! ## Suspended steps are resumed -/

mutual

/-- Exactly the steps that suspended are resumed. -/
theorem Schedule.suspendedAt_iff {path : List PathEntry} {node : Value}
    {moments : List (Moment ε α)} (h : Schedule a path node moments)
    (path' : List PathEntry) (node' : Value) :
    SuspendedAt moments path' node' ↔ ResumedAt moments path' node' := by
  -- What is below the node has its own answer; what is at the node is suspended and resumed, or
  -- neither.
  match h with
  | .unsuspended acc answer hanswer hchildren hinner =>
    have hbelow := hinner.suspendedAt_iff path' node'
    unfold SuspendedAt ResumedAt at hbelow ⊢
    simp only [List.mem_cons, reduceCtorEq, false_or, Moment.called.injEq]
    rw [← hbelow]
    constructor
    · intro ⟨acc', yielded, hmem⟩
      rcases hmem with ⟨-, -, -, hsuspended⟩ | hmem
      · exact absurd hsuspended.symm (hanswer yielded)
      · exact ⟨acc', yielded, hmem⟩
    · intro ⟨acc', yielded, hmem⟩
      exact ⟨acc', yielded, .inr hmem⟩
  | .suspended acc yielded results reply hchildren hinner =>
    have hbelow := hinner.suspendedAt_iff path' node'
    unfold SuspendedAt ResumedAt at hbelow ⊢
    simp only [List.mem_cons, List.mem_append, List.not_mem_nil, reduceCtorEq, false_or, or_false,
      Moment.called.injEq, Moment.resumed.injEq, Answer.suspended.injEq]
    constructor
    · intro ⟨acc', yielded', hmem⟩
      rcases hmem with ⟨rfl, rfl, -, -⟩ | hmem
      · exact ⟨results, reply, .inr ⟨rfl, rfl, rfl, rfl⟩⟩
      · obtain ⟨results', reply', hmem'⟩ := hbelow.mp ⟨acc', yielded', hmem⟩
        exact ⟨results', reply', .inl hmem'⟩
    · intro ⟨results', reply', hmem⟩
      rcases hmem with hmem | ⟨rfl, rfl, -, -⟩
      · obtain ⟨acc', yielded', hmem'⟩ := hbelow.mpr ⟨results', reply', hmem⟩
        exact ⟨acc', yielded', .inr hmem'⟩
      · exact ⟨acc, yielded, .inl ⟨rfl, rfl, rfl, rfl⟩⟩
termination_by structural h

/-- So it is with the schedules of children. -/
theorem ScheduleAll.suspendedAt_iff {path : List PathEntry} {parent : Value}
    {children : List (Slot × Value)} {moments : List (Moment ε α)}
    (h : ScheduleAll a path parent children moments) (path' : List PathEntry) (node' : Value) :
    SuspendedAt moments path' node' ↔ ResumedAt moments path' node' := by
  match h with
  | .nil => simp [SuspendedAt, ResumedAt]
  | .cons slot child rest hfirst hrest =>
    have hfirst' := hfirst.suspendedAt_iff path' node'
    have hrest' := hrest.suspendedAt_iff path' node'
    unfold SuspendedAt ResumedAt at hfirst' hrest' ⊢
    simp only [List.mem_append, exists_or]
    rw [hfirst', hrest']
termination_by structural h

end

/-! ## Whole walks -/

/-- The turns of a walk that ends normally are the schedule of its root: at every
    node the call, then the turns of the children in the order of fields and items,
    then the resumption exactly if the call had suspended.  The children are the
    nodes that the fields hold, directly or as items of a list or tuple.  Every node
    reached has its schedule in one piece, nothing else takes a turn, the steps
    resumed are those that suspended, and if keys are distinct no turn is taken
    twice. -/
theorem traverse_schedule (root : Value) (step : Step σ ε α) (init : Option α) (own : σ)
    (adapter : Option Adapter) (logger : Option (Logger σ)) (result : Option α)
    (h : (traverse root step init own adapter logger).outcome = .ok result) :
    let a := adapter.getD (.default root)
    let moments := turns (history root step init own adapter logger)
    Schedule a [] root moments ∧
      (∀ node children, a.children? node = some children →
        ∀ slot child, (slot, child) ∈ children ↔ a.IsChild node slot child) ∧
      (∀ path node, a.Reaches root path node →
        ∃ block, block <:+: moments ∧ Schedule a path node block) ∧
      (∀ m ∈ moments, ∀ path node, m.position? = some (path, node) →
        a.Reaches root path node) ∧
      (∀ path node, SuspendedAt moments path node ↔ ResumedAt moments path node) ∧
      (root.DistinctKeys → (taken moments).Nodup) := by
  intro a moments
  have hvisit := (visit_history root step init own adapter logger).1
  rw [h] at hvisit
  have hschedule : Schedule a [] root moments := hvisit.schedule
  refine ⟨hschedule, ?_, ?_, ?_, hschedule.suspendedAt_iff, ?_⟩
  · intro node children hchildren slot child
    exact Adapter.mem_children?_iff hchildren
  · intro path node hreach
    exact hschedule.exists_block hreach
  · intro m hm path node hposition
    obtain ⟨past, hplaced⟩ := (history_placed root step init own adapter logger).exists_of_mem
      (List.mem_of_mem_filter hm)
    exact hplaced.reaches hposition
  · intro hkeys
    exact hschedule.nodup_taken .root hkeys

/-- The document of the sum `1 + 2`. -/
def onePlusTwo : Value :=
  .dict [(.str "type", .str "BinaryExpression"),
    (.str "left", .dict [(.str "type", .str "NumericLiteral"), (.str "value", .int 1)]),
    (.str "operator", .str "+"),
    (.str "right", .dict [(.str "type", .str "NumericLiteral"), (.str "value", .int 2)])]

/-- Its keys are told apart. -/
theorem separateKeys_onePlusTwo : onePlusTwo.SeparateKeys := by
  simp [onePlusTwo, Value.SeparateKeys, Value.EveryRecord, Value.EveryRecordEntries,
    Value.sameKey_str]

/-- The syntax tree of `lambda: 1 + 2`. -/
def lambdaSum : Value :=
  let constant (i : Int) : Value := Form.node "Constant" [("value", .int i)]
  let parameters : Value := Form.node "arguments" [("posonlyargs", .list []), ("args", .list []),
    ("kwonlyargs", .list []), ("kw_defaults", .list []), ("defaults", .list [])]
  Form.node "Expression" [("body", Form.node "Lambda" [("args", parameters),
    ("body", Form.node "BinOp"
      [("left", constant 1), ("op", Form.node "Add" []), ("right", constant 2)])])]

/-- The names of the fields of all its forms are told apart. -/
theorem separateKeys_lambdaSum : lambdaSum.SeparateKeys := by
  simp [lambdaSum, Form.node, Value.SeparateKeys, Value.EveryRecord, Value.EveryRecordEntries,
    Value.EveryRecordItems, Value.sameKey_str]

/-- Folding `1 + 2` ends normally, and as its keys are distinct no turn is taken twice: the sum
    suspends, its operands finish at once.  So it is with the same sum inside a function without
    a name, where the walk comes to seven nodes and the sum alone suspends. -/
theorem traverse_schedule_onePlusTwo :
    let fold := Folding.step [.plus]
    let moments (root : Value) := turns (history root fold none [] none none)
    (∃ result, (traverse onePlusTwo fold none [] none none).outcome = .ok result ∧
      onePlusTwo.DistinctKeys ∧ Schedule .tagged [] onePlusTwo (moments onePlusTwo) ∧
        (taken (moments onePlusTwo)).Nodup) ∧
    ∃ result, (traverse lambdaSum fold none [] none none).outcome = .ok result ∧
      lambdaSum.DistinctKeys ∧ Schedule .source [] lambdaSum (moments lambdaSum) ∧
        (taken (moments lambdaSum)).Nodup ∧ (moments lambdaSum).length = 7 + 1 := by
  intro fold moments
  have hok : (traverse onePlusTwo fold none [] none none).outcome.isOk = true := by
    decide +kernel
  have hok' : (traverse lambdaSum fold none [] none none).outcome.isOk = true := by
    decide +kernel
  have hkeys := separateKeys_onePlusTwo.distinctKeys
  have hkeys' := separateKeys_lambdaSum.distinctKeys
  constructor
  · cases h : (traverse onePlusTwo fold none [] none none).outcome with
    | error failure => simp [h, Except.isOk, Except.toBool] at hok
    | ok result =>
      obtain ⟨hschedule, -, -, -, -, hnodup⟩ :=
        traverse_schedule onePlusTwo fold none [] none none result h
      exact ⟨result, rfl, hkeys, hschedule, hnodup hkeys⟩
  · cases h : (traverse lambdaSum fold none [] none none).outcome with
    | error failure => simp [h, Except.isOk, Except.toBool] at hok'
    | ok result =>
      obtain ⟨hschedule, -, -, -, -, hnodup⟩ :=
        traverse_schedule lambdaSum fold none [] none none result h
      exact ⟨result, rfl, hkeys', hschedule, hnodup hkeys', by decide +kernel⟩

end TreeWalk
