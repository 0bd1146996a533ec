import TreeWalk.Proofs.Conduct
import TreeWalk.Proofs.FoldedWalks
import TreeWalk.Proofs.Outcome

/-! # Folds that fail

A fold can only fail when it is resumed at an expression with a selected operator, and what is found
in the two operand fields decides how.  An operand that is missing is reported as such.  An operand
that is the results of a sequence is not noticed before the operator is applied to it, which has
then no value for it.

## Key results

* `Folding.Fault` says how an expression fails, from what is found in its operand fields.
* `Folding.conduct_step` says what the step answers whenever it is called or resumed.
* `Children.exists_of_get?_ofVisits` says that only children with a position give a sequence.
* `Folding.exists_of_resumed` says when a resumption fails.
* `traverse_fold_failures` says how a walk that folds fails.
-/

namespace TreeWalk

/-! ## Faults -/

namespace Folding

/-- Whether a number is found in an operand field. -/
def IsNumber (found : Option (FieldResult Number)) : Prop :=
  ∃ x, found = some (.single (some x))

/-- Whether nothing is found in an operand field: no child was visited there, or the one that was
    has no value. -/
def IsMissing (found : Option (FieldResult Number)) : Prop :=
  found = none ∨ found = some (.single none)

/-- Whether the results of a sequence are found in an operand field. -/
def IsSequence (found : Option (FieldResult Number)) : Prop :=
  ∃ results, found = some (.sequence results)

/-- How an expression of the given kind and place fails, from what is found in its two operand
    fields. -/
inductive Fault (op : Operator) (kind location : String) :
    Option (FieldResult Number) → Option (FieldResult Number) → Error → Prop where
  | missing {left right} (h : IsMissing left ∨ IsMissing right) :
      Fault op kind location left right (.notNumeric kind location)
  | sequence {left right} (hleft : ¬IsMissing (some left)) (hright : ¬IsMissing (some right))
      (h : IsSequence (some left) ∨ IsSequence (some right)) :
      Fault op kind location (some left) (some right)
        (.unsupported op (operandType left) (operandType right))
  | arithmetic {x y error} (h : op.apply x y = .error error) :
      Fault op kind location (some (.single (some x))) (some (.single (some y)))
        (.arithmetic error)

/-- What is found in a field is missing, a number or a sequence. -/
theorem isMissing_or_isNumber_or_isSequence (found : Option (FieldResult Number)) :
    IsMissing found ∨ IsNumber found ∨ IsSequence found := by
  match found with
  | none => exact .inl (.inl rfl)
  | some (.single none) => exact .inl (.inr rfl)
  | some (.single (some x)) => exact .inr (.inl ⟨x, rfl⟩)
  | some (.sequence results) => exact .inr (.inr ⟨results, rfl⟩)

/-- What is neither a number nor a sequence is missing. -/
theorem isMissing_of_not {found : Option (FieldResult Number)} (hnumber : ¬IsNumber found)
    (hsequence : ¬IsSequence found) : IsMissing found := by
  rcases isMissing_or_isNumber_or_isSequence found with h | h | h
  · exact h
  · exact absurd h hnumber
  · exact absurd h hsequence

/-- What is neither missing nor a sequence is a number. -/
theorem isNumber_of_not {found : Option (FieldResult Number)} (hmissing : ¬IsMissing found)
    (hsequence : ¬IsSequence found) : IsNumber found := by
  rcases isMissing_or_isNumber_or_isSequence found with h | h | h
  · exact absurd h hmissing
  · exact h
  · exact absurd h hsequence

/-- A missing operand is reported before anything else is looked at. -/
theorem combine_of_isMissing (op : Operator) (kind location : String)
    {left right : Option (FieldResult Number)} (h : IsMissing left ∨ IsMissing right) :
    combine op kind location left right = .error (.notNumeric kind location) := by
  rcases h with (rfl | rfl) | (rfl | rfl)
  · rfl
  · cases right <;> rfl
  · cases left <;> rfl
  · match left with
    | none => rfl
    | some (.single none) => rfl
    | some (.single (some x)) => rfl
    | some (.sequence results) => rfl

/-- A sequence passes for an operand that is there, but no operator has a value for it. -/
theorem combine_of_isSequence (op : Operator) (kind location : String)
    {left right : FieldResult Number} (hleft : ¬IsMissing (some left))
    (hright : ¬IsMissing (some right)) (h : IsSequence (some left) ∨ IsSequence (some right)) :
    combine op kind location (some left) (some right) =
      .error (.unsupported op (operandType left) (operandType right)) := by
  match left, right with
  | .single none, _ => exact absurd (.inr rfl) hleft
  | _, .single none => exact absurd (.inr rfl) hright
  | .single (some x), .single (some y) => rcases h with ⟨_, h⟩ | ⟨_, h⟩ <;> cases h
  | .single (some x), .sequence results => rfl
  | .sequence results, .single (some y) => rfl
  | .sequence results, .sequence results' => rfl

/-- Combining two operands fails just if the expression is at fault. -/
theorem combine_eq_error_iff {op : Operator} {kind location : String}
    {left right : Option (FieldResult Number)} {error : Error} :
    combine op kind location left right = .error error ↔
      Fault op kind location left right error := by
  constructor
  · intro h
    by_cases hmissing : IsMissing left ∨ IsMissing right
    · rw [combine_of_isMissing op kind location hmissing] at h
      obtain rfl := Except.error.inj h
      exact .missing hmissing
    · obtain ⟨hleft, hright⟩ := not_or.mp hmissing
      obtain ⟨left, rfl⟩ := Option.ne_none_iff_exists'.mp fun hnone => hleft (.inl hnone)
      obtain ⟨right, rfl⟩ := Option.ne_none_iff_exists'.mp fun hnone => hright (.inl hnone)
      by_cases hsequence : IsSequence (some left) ∨ IsSequence (some right)
      · rw [combine_of_isSequence op kind location hleft hright hsequence] at h
        obtain rfl := Except.error.inj h
        exact .sequence hleft hright hsequence
      · obtain ⟨hleft', hright'⟩ := not_or.mp hsequence
        obtain ⟨x, hx⟩ := isNumber_of_not hleft hleft'
        obtain ⟨y, hy⟩ := isNumber_of_not hright hright'
        obtain rfl := Option.some.inj hx
        obtain rfl := Option.some.inj hy
        -- Of two numbers nothing but the operator can make a failure.
        rw [combine] at h
        cases happly : op.apply x y with
        | ok value =>
          rw [happly] at h
          cases h
        | error e =>
          rw [happly] at h
          obtain rfl := Except.error.inj h
          exact .arithmetic happly
  · intro h
    cases h with
    | missing h => exact combine_of_isMissing op kind location h
    | sequence hleft hright h => exact combine_of_isSequence op kind location hleft hright h
    | arithmetic h =>
      rw [combine, h]
      rfl

/-! ## What the step answers -/

/-- What the step answers at a moment of a walk: a literal and a node without a value finish at
    once, and an expression with a selected operator is resumed to combine its operands. -/
def Answers (selected : List Operator) (a : Adapter) : Moment Error Number → Prop
  | .logged _ => True
  | .called node _ _ answer => answer = match role selected (a.kindOf node) node with
    | .literal value => .finished value
    | .other => .finished none
    | .binary _ => .suspended none
  | .resumed node path children reply => ∃ op, role selected (a.kindOf node) node = .binary op ∧
    reply = match combine op ((a.kindOf node).getD "None") (a.location path)
        (children.get? "left") (children.get? "right") with
      | .ok value => .finished (some value)
      | .error error => .failed error
  | .closed .. => False

/-- Every answer of the step that folds is one of those above, whatever the state. -/
theorem conduct_step (selected : List Operator) (silent : Bool) (a : Adapter) :
    (step selected silent).Conduct a (Answers selected a) := by
  intro node acc path reported
  have hkind : Context.kindOf { path, adapter := some a } node = a.kindOf node := rfl
  unfold Step.start step
  simp only [pure_bind, hkind, Answers]
  cases hrole : role selected (a.kindOf node) node with
  | literal value =>
    refine ⟨rfl, ?_⟩
    intro started hstarted
    obtain rfl := Except.ok.inj hstarted
    trivial
  | other =>
    refine ⟨rfl, ?_⟩
    intro started hstarted
    obtain rfl := Except.ok.inj hstarted
    trivial
  | binary op =>
    refine ⟨rfl, ?_⟩
    intro started hstarted
    obtain rfl := Except.ok.inj hstarted
    intro children path' reported'
    have hlocation : Context.describe { path := path', adapter := some a } = a.location path' := rfl
    simp only [hlocation]
    cases hcombine : combine op ((a.kindOf node).getD "None") (a.location path')
        (children.get? "left") (children.get? "right") with
    | error error =>
      refine ⟨⟨op, hrole, by rw [hcombine]; rfl⟩, ?_⟩
      intro resumed hresumed
      cases hresumed
    | ok value =>
      -- Whether the value is reported shows in the state only.
      cases silent
      all_goals
        refine ⟨⟨op, hrole, by rw [hcombine]; rfl⟩, ?_⟩
        intro resumed hresumed
        obtain rfl := Except.ok.inj hresumed
        trivial

/-- An expression with a selected operator has a kind. -/
theorem exists_kind_of_role_binary {selected : List Operator} {kind : Option String} {node : Value}
    {op : Operator} (h : role selected kind node = .binary op) : ∃ name, kind = some name := by
  cases kind with
  | some name => exact ⟨name, rfl⟩
  | none => cases h

end Folding

/-! ## Sequences of results -/

/-- The only key that is the same as a text is the text. -/
theorem Value.eq_str_of_sameKey {text : String} {key : Value}
    (h : (Value.str text).sameKey key = true) : key = .str text := by
  cases key with
  | str other =>
    rw [sameKey_str, beq_iff_eq] at h
    rw [h]
  | _ => simp [sameKey, same, identical] at h

namespace Children

variable {α : Type}

/-- Recording a child makes a sequence only if the child has a position. -/
theorem mem_record_sequence {slot : Slot} {result : Option α} {children : Children α} {prop : Value}
    {found : List (Nat × Option α)} (h : (prop, .sequence found) ∈ record slot result children) :
    (∃ found', (prop, .sequence found') ∈ children) ∨
      prop.sameKey slot.prop = true ∧ ∃ i, slot.index = some i := by
  -- Only a slot with an index turns what is there into a sequence.
  have hadd : ∀ old : Option (FieldResult α),
      FieldResult.add slot.index result old = .sequence found → ∃ i, slot.index = some i := by
    intro old hold
    cases hindex : slot.index with
    | some i => exact ⟨i, rfl⟩
    | none =>
      rw [hindex] at hold
      match old with
      | none | some (.single _) | some (.sequence _) => cases hold
  -- The fields are searched in order for the one with the property of the slot.
  induction children with
  | nil =>
    obtain ⟨rfl, hfound⟩ := Prod.mk.inj (List.mem_singleton.mp h)
    exact .inr ⟨Value.sameKey_self _, hadd none hfound.symm⟩
  | cons field rest ih =>
    obtain ⟨prop', old⟩ := field
    rw [record] at h
    split at h
    · rename_i hsame
      rcases List.mem_cons.mp h with heq | hrest
      · obtain ⟨rfl, hfound⟩ := Prod.mk.inj heq
        exact .inr ⟨hsame, hadd (some old) hfound.symm⟩
      · exact .inl ⟨found, List.mem_cons_of_mem _ hrest⟩
    · rcases List.mem_cons.mp h with heq | hrest
      · exact .inl ⟨found, by rw [heq]; exact List.mem_cons_self⟩
      · rcases ih hrest with ⟨found', hmem⟩ | hslot
        · exact .inl ⟨found', List.mem_cons_of_mem _ hmem⟩
        · exact .inr hslot

/-- A field that contributed a sequence holds a child that has a position. -/
theorem exists_of_mem_ofVisits {visits : List (Slot × Option α)} {prop : Value}
    {found : List (Nat × Option α)} (h : (prop, .sequence found) ∈ ofVisits visits) :
    ∃ visit ∈ visits, prop.sameKey visit.1.prop = true ∧ ∃ i, visit.1.index = some i := by
  unfold ofVisits at h
  -- The induction is on the visits made so far; a later one leaves earlier ones alone.
  induction visits using List.reverseRecOn generalizing found with
  | nil => cases h
  | append_singleton visits visit ih =>
    rw [List.foldl_append] at h
    rcases mem_record_sequence h with ⟨found', hearlier⟩ | hvisit
    · obtain ⟨visit', hmem, hslot⟩ := ih hearlier
      exact ⟨visit', List.mem_append_left _ hmem, hslot⟩
    · exact ⟨visit, List.mem_append_right _ (List.mem_singleton.mpr rfl), hvisit⟩

/-- A field of that name which contributed a sequence holds a child that has a position. -/
theorem exists_of_get?_ofVisits {visits : List (Slot × Option α)} {name : String}
    {found : List (Nat × Option α)} (h : get? name (ofVisits visits) = some (.sequence found)) :
    ∃ visit ∈ visits, visit.1.prop = .str name ∧ ∃ i, visit.1.index = some i := by
  obtain ⟨⟨prop, _⟩, hfield, rfl⟩ := Option.map_eq_some_iff.mp h
  obtain ⟨rfl, hmem⟩ := Value.of_find?_isText hfield
  obtain ⟨visit, hvisit, hsame, hindex⟩ := exists_of_mem_ofVisits hmem
  exact ⟨visit, hvisit, Value.eq_str_of_sameKey hsame, hindex⟩

end Children

section

variable {σ ε α : Type} {a : Adapter} {verbosity : Option VerbositySetting}

/-- The visits of children that end normally give one result for every child, in order. -/
theorem VisitAll.map_fst_eq {path : List PathEntry} {parent : Value} {acc : Option α}
    {children : List (Slot × Value)} {moments : List (Moment ε α)}
    {visits : List (Slot × Option α)}
    (h : VisitAll a verbosity path parent acc children moments (.ok visits)) :
    visits.map Prod.fst = children.map Prod.fst := by
  induction children generalizing moments visits with
  | nil =>
    cases h with
    | nil => rfl
  | cons first rest ih =>
    -- `cases` needs the outcome to be a variable.
    generalize hfin : Except.ok visits = fin at h
    cases h with
    | failed slot child _ hfirst => cases hfin
    | cons slot child _ hfirst hothers =>
      obtain ⟨visits', rfl, rfl⟩ := exists_of_map_eq_ok hfin.symm
      rw [List.map_cons, List.map_cons, ih hothers]

/-- If a step is resumed with the results of a sequence, a child of the node has a position in
    that field. -/
theorem exists_isChild_of_get?_sequence {root : Value} {step : Step σ ε α} {init : Option α}
    {own : σ} {adapter : Option Adapter} {logger : Option (Logger σ)} {node : Value}
    {path : List PathEntry} {children : Children α} {reply : Reply ε α} {name : String}
    {found : List (Nat × Option α)}
    (hresumed : .resumed node path children reply ∈ history root step init own adapter logger)
    (h : children.get? name = some (.sequence found)) :
    ∃ i child, (adapter.getD (.default root)).IsChild node ⟨.str name, some i⟩ child := by
  have hfollows : Throughout _ [] _ :=
    (visit_history root step init own adapter logger).1.followsVisits
  obtain ⟨past, acc, below, inner, visits, hchildren, hvisits, rfl, -⟩ :=
    -- The result that made it a sequence is that of a visit, and the visit is that of a child.
    hfollows.exists_of_mem hresumed
  obtain ⟨⟨⟨prop, index⟩, result⟩, hvisit, hprop, i, hindex⟩ := Children.exists_of_get?_ofVisits h
  obtain rfl : prop = .str name := hprop
  obtain rfl : index = some i := hindex
  have hslot := List.mem_map_of_mem (f := Prod.fst) hvisit
  rw [hvisits.map_fst_eq] at hslot
  obtain ⟨⟨slot, child⟩, hchild, hslot⟩ := List.mem_map.mp hslot
  obtain rfl : slot = ⟨.str name, some i⟩ := hslot
  exact ⟨i, child, (Adapter.mem_children?_iff hchildren).mp hchild⟩

/-! ## How a walk fails -/

/-- A resumption that fails ends the walk with its failure. -/
theorem Ends.eq_of_resumption_failed {moments : List (Moment ε α)} {failure : Option (Failure ε)}
    (h : Ends a verbosity moments failure) {node : Value} {path : List PathEntry}
    {children : Children α} {e : ε} (hmem : .resumed node path children (.failed e) ∈ moments) :
    failure = some (.step e) := by
  obtain ⟨normal, final, hsteps, hnormal, hverdict⟩ := h
  generalize errorLines moments = errors at hverdict
  -- A failed resumption is the doing of the step, and all its doings but the last are normal.
  have hstep : .resumed node path children (.failed e) ∈ stepsOf moments :=
    List.mem_filter.mpr ⟨hmem, rfl⟩
  rw [hsteps] at hstep
  rcases List.mem_append.mp hstep with hmem | hmem
  · obtain ⟨result, hreply⟩ := hnormal _ hmem
    cases hreply
  · cases hverdict with
    | normal => cases hmem
    | callFailed node' path' acc e' => simp at hmem
    | resumptionFailed node' path' children' e' =>
      obtain ⟨-, -, -, hreply⟩ := Moment.resumed.inj (List.mem_singleton.mp hmem)
      rw [Reply.failed.inj hreply]
    | closeFailed node' path' children' e' => simp at hmem
    | suspendedTwice node' path' children' => simp at hmem
    | missingResult node' path' children' => simp at hmem

end

/-- A walk that folds fails only if one of its resumptions does. -/
theorem Ends.exists_resumption_failed {selected : List Operator} {a : Adapter}
    {verbosity : Option VerbositySetting} {moments : List (Moment Folding.Error Number)}
    {failure : Failure Folding.Error} (h : Ends a verbosity moments (some failure))
    (hanswers : ∀ m ∈ moments, Folding.Answers selected a m) :
    ∃ node path children error, .resumed node path children (.failed error) ∈ moments ∧
      failure = .step error := by
  obtain ⟨normal, final, hsteps, -, hverdict⟩ := h
  -- What comes last in the walk is one of its moments, and so is an answer of this step.
  have hfinal : ∀ m ∈ final, m ∈ moments := by
    intro m hm
    have hstep : m ∈ stepsOf moments := by
      rw [hsteps]
      exact List.mem_append_right normal hm
    exact List.mem_of_mem_filter hstep
  generalize errorLines moments = errors at hverdict
  generalize hfailure : some failure = failure' at hverdict
  -- Of the ways to fail only this one is left: the step raises in no call and in no closing, it
  -- does not suspend itself a second time, and it leaves no result unset.
  cases hverdict with
  | normal => cases hfailure
  | callFailed node path acc e =>
    have hcalled := hanswers _ (hfinal _ List.mem_cons_self)
    simp only [Folding.Answers] at hcalled
    split at hcalled <;> cases hcalled
  | resumptionFailed node path children e =>
    exact ⟨node, path, children, e, hfinal _ List.mem_cons_self, Option.some.inj hfailure⟩
  | closeFailed node path children e =>
    exact (hanswers _ (hfinal _ (List.mem_cons_of_mem _ List.mem_cons_self))).elim
  | suspendedTwice node path children =>
    exact (hanswers _ (hfinal _ (List.mem_cons_of_mem _ List.mem_cons_self))).elim
  | missingResult node path children =>
    obtain ⟨op, -, hreply⟩ := hanswers _ (hfinal _ List.mem_cons_self)
    split at hreply <;> cases hreply

namespace Folding

variable {root : Value} {adapter : Option Adapter} {selected : List Operator} {silent : Bool}
  {init : Option Number} {reported : List Number} {logger : Option (Logger (List Number))}

/-- In a walk that folds, every moment is an answer of the step that folds. -/
theorem answers_of_mem_history :
    ∀ m ∈ history root (step selected silent) init reported adapter logger,
      Answers selected (adapter.getD (.default root)) m :=
  (conduct_step selected silent _).history (fun _ => trivial) init reported logger

section

variable {node : Value} {path : List PathEntry} {children : Children Number}
  {reply : Reply Error Number}

/-- A walk that folds is resumed at expressions with a selected operator only, and the resumption
    fails just if the expression is at fault. -/
theorem exists_of_resumed
    (h : .resumed node path children reply ∈
      history root (step selected silent) init reported adapter logger) :
    let a := adapter.getD (.default root)
    ∃ op kind, role selected (a.kindOf node) node = .binary op ∧ a.kindOf node = some kind ∧
      ∀ error, reply = .failed error ↔
        Fault op kind (a.location path) (children.get? "left") (children.get? "right") error := by
  intro a
  obtain ⟨op, hrole, hreply⟩ := answers_of_mem_history _ h
  obtain ⟨kind, hkind⟩ := exists_kind_of_role_binary hrole
  refine ⟨op, kind, hrole, hkind, ?_⟩
  intro error
  rw [hkind, Option.getD_some] at hreply
  rw [hreply, ← combine_eq_error_iff]
  cases combine op kind (a.location path) (children.get? "left") (children.get? "right") with
  | ok value => simp
  | error e => simp

/-- If operands are no sequences, none is found in an operand field. -/
theorem not_isSequence_of_resumed
    (hdirect : DirectOperands selected (adapter.getD (.default root)) root)
    (h : .resumed node path children reply ∈
      history root (step selected silent) init reported adapter logger)
    {name : String} (hname : name = "left" ∨ name = "right") :
    ¬IsSequence (children.get? name) := by
  rintro ⟨found, hfound⟩
  -- What makes it a sequence is a child with a position, and the walk has come to its parent.
  obtain ⟨i, child, hchild⟩ := exists_isChild_of_get?_sequence h hfound
  obtain ⟨op, kind, hrole, -⟩ := exists_of_resumed h
  obtain ⟨past, hplaced⟩ := (history_placed root _ init reported adapter logger).exists_of_mem h
  have hindex := hdirect _ _ _ _ _ hplaced.1 hrole hchild
    (hname.imp (congrArg Value.str) (congrArg Value.str))
  cases hindex

end

end Folding

/-- A walk that folds fails only when it is resumed at an expression with a selected operator, and
    it fails there whenever the expression is at fault.  If operands are no sequences, an operand
    that is no number is missing and is reported with the kind and the place of the expression, and
    nothing else goes wrong but the arithmetic of two numbers. -/
theorem traverse_fold_failures (root : Value) (adapter : Option Adapter) (selected : List Operator)
    (silent : Bool) (init : Option Number) (reported : List Number)
    (logger : Option (Logger (List Number)))
    (hroot : (adapter.getD (.default root)).isNode root = true) :
    let a := adapter.getD (.default root)
    let step := Folding.step selected silent
    let moments := history root step init reported adapter logger
    let outcome := (traverse root step init reported adapter logger).outcome
    (∀ node path children reply, .resumed node path children reply ∈ moments →
      ∃ op kind, Folding.role selected (a.kindOf node) node = .binary op ∧
        a.kindOf node = some kind ∧
        ∀ error, Folding.Fault op kind (a.location path) (children.get? "left")
          (children.get? "right") error → outcome = .error (.step error)) ∧
    (∀ failure, outcome = .error failure →
      ∃ node path children reply op kind error,
        .resumed node path children reply ∈ moments ∧
        Folding.role selected (a.kindOf node) node = .binary op ∧ a.kindOf node = some kind ∧
        Folding.Fault op kind (a.location path) (children.get? "left") (children.get? "right")
          error ∧ failure = .step error) ∧
    (Folding.DirectOperands selected a root →
      (∀ node path children reply, .resumed node path children reply ∈ moments →
        ¬Folding.IsNumber (children.get? "left") ∨ ¬Folding.IsNumber (children.get? "right") →
          ∃ kind, a.kindOf node = some kind ∧
            outcome = .error (.step (.notNumeric kind (a.location path)))) ∧
      ∀ failure, outcome = .error failure →
        (∃ kind location, failure = .step (.notNumeric kind location)) ∨
          ∃ error, failure = .step (.arithmetic error)) := by
  intro a step moments outcome
  -- The walk ends as its last moment does, and every moment is an answer of the step.
  have hends : Ends a (logger.map Logger.verbosity) moments (failure? outcome) :=
    (visit_history root step init reported adapter logger).1.ends hroot
  -- An expression at fault makes its resumption fail, and with it the walk.
  have hfaults : ∀ node path children reply, .resumed node path children reply ∈ moments →
      ∃ op kind, Folding.role selected (a.kindOf node) node = .binary op ∧
        a.kindOf node = some kind ∧
        ∀ error, Folding.Fault op kind (a.location path) (children.get? "left")
          (children.get? "right") error → outcome = .error (.step error) := by
    intro node path children reply hresumed
    obtain ⟨op, kind, hrole, hkind, hreply⟩ := Folding.exists_of_resumed hresumed
    refine ⟨op, kind, hrole, hkind, ?_⟩
    intro error hfault
    rw [(hreply error).mpr hfault] at hresumed
    exact eq_error_of_failure? (hends.eq_of_resumption_failed hresumed)
  -- If the walk fails, then some resumption did, so its expression was at fault.
  have hfailures : ∀ failure, outcome = .error failure →
      ∃ node path children reply op kind error,
        .resumed node path children reply ∈ moments ∧
        Folding.role selected (a.kindOf node) node = .binary op ∧ a.kindOf node = some kind ∧
        Folding.Fault op kind (a.location path) (children.get? "left") (children.get? "right")
          error ∧ failure = .step error := by
    intro failure hfailure
    rw [hfailure] at hends
    obtain ⟨node, path, children, error, hresumed, hstep⟩ :=
      hends.exists_resumption_failed Folding.answers_of_mem_history
    obtain ⟨op, kind, hrole, hkind, hreply⟩ := Folding.exists_of_resumed hresumed
    have hfault := (hreply error).mp rfl
    exact ⟨node, path, children, _, op, kind, error, hresumed, hrole, hkind, hfault, hstep⟩
  refine ⟨hfaults, hfailures, ?_⟩
  intro hdirect
  constructor
  · -- An operand that is no number is missing, as it is no sequence.
    intro node path children reply hresumed hnumber
    obtain ⟨op, kind, -, hkind, hfault⟩ := hfaults node path children reply hresumed
    refine ⟨kind, hkind, hfault _ (.missing (hnumber.imp ?_ ?_))⟩
    · intro hleft
      have hsequence := Folding.not_isSequence_of_resumed hdirect hresumed (.inl rfl)
      exact Folding.isMissing_of_not hleft hsequence
    · intro hright
      have hsequence := Folding.not_isSequence_of_resumed hdirect hresumed (.inr rfl)
      exact Folding.isMissing_of_not hright hsequence
  · -- Without sequences only two of the three faults are left.
    intro failure hfailure
    obtain ⟨node, path, children, reply, op, kind, error, hresumed, -, -, hfault, rfl⟩ :=
      hfailures failure hfailure
    have hleft := Folding.not_isSequence_of_resumed hdirect hresumed (.inl rfl)
    have hright := Folding.not_isSequence_of_resumed hdirect hresumed (.inr rfl)
    generalize children.get? "left" = left at hfault hleft
    generalize children.get? "right" = right at hfault hright
    cases hfault with
    | missing h => exact .inl ⟨kind, _, rfl⟩
    | sequence _ _ h => exact absurd h (not_or.mpr ⟨hleft, hright⟩)
    | arithmetic h => exact .inr ⟨_, rfl⟩

/-- The document of a sum whose right operand is missing. -/
def halfSum : Value :=
  .dict [(.str "type", .str "BinaryExpression"),
    (.str "left", .dict [(.str "type", .str "NumericLiteral"), (.str "value", .int 1)]),
    (.str "operator", .str "+")]

/-- The document of a sum whose left operand is in a list. -/
def listSum : Value :=
  .dict [(.str "type", .str "BinaryExpression"),
    (.str "left", .list [.dict [(.str "type", .str "NumericLiteral"), (.str "value", .int 1)]]),
    (.str "operator", .str "+"),
    (.str "right", .dict [(.str "type", .str "NumericLiteral"), (.str "value", .int 2)])]

/-- The place of a resumption, and what is found in the operand fields: whether there is something,
    and whether it is a sequence. -/
def Moment.operandsFound : Moment Folding.Error Number →
    Option (String × List (Option Bool))
  | .resumed _ path children _ => some (Adapter.tagged.location path,
      ["left", "right"].map fun name => (children.get? name).map fun
        | .sequence _ => true
        | .single _ => false)
  | _ => none

/-- Folding half a sum, the missing operand is reported. -/
theorem traverse_fold_failures_halfSum :
    let step := Folding.step [.plus]
    Adapter.tagged.isNode halfSum = true ∧ Folding.DirectOperands [.plus] .tagged halfSum ∧
      ∃ node path children reply,
        .resumed node path children reply ∈ history halfSum step none [] (some .tagged) none ∧
        ¬Folding.IsNumber (children.get? "right") ∧
        ∃ kind, (traverse halfSum step none [] (some .tagged)).outcome =
          .error (.step (.notNumeric kind "<root>")) := by
  intro step
  have hnode : Adapter.tagged.isNode halfSum = true := by decide
  have hdirect : Folding.DirectOperands [.plus] .tagged halfSum :=
    Folding.directOperands_of_exits _ (by decide +kernel)
  have hany : ∃ m ∈ history halfSum step none [] (some .tagged) none,
      m.operandsFound = some ("<root>", [some false, none]) := by
    decide +kernel
  obtain ⟨m, hmem, hm⟩ := hany
  cases m with
  | logged line => cases hm
  | called node path acc answer => cases hm
  | closed node path failure => cases hm
  | resumed node path children reply =>
    simp only [Moment.operandsFound, List.map_cons, Option.some.injEq, Prod.mk.injEq,
      List.cons.injEq, Option.map_eq_none_iff] at hm
    obtain ⟨hlocation, -, hright, -⟩ := hm
    have hnumber : ¬Folding.IsNumber (children.get? "right") := by
      rw [hright]
      rintro ⟨x, hx⟩
      cases hx
    obtain ⟨-, -, hfailures⟩ := traverse_fold_failures halfSum (some .tagged) [.plus] false none []
      none hnode
    obtain ⟨kind, -, hfailed⟩ := (hfailures hdirect).1 node path children reply hmem (.inr hnumber)
    rw [Option.getD_some, hlocation] at hfailed
    exact ⟨hnode, hdirect, node, path, children, reply, hmem, hnumber, kind, hfailed⟩

/-- Folding a sum with a list for an operand, the operand is no number, but this is not what is
    reported. -/
theorem Folding.not_notNumeric_listSum :
    let step := Folding.step [.plus]
    Adapter.tagged.isNode listSum = true ∧
      (∃ node path children reply,
        .resumed node path children reply ∈ history listSum step none [] (some .tagged) none ∧
        ¬Folding.IsNumber (children.get? "left")) ∧
      (traverse listSum step none [] (some .tagged)).outcome =
        .error (.step (.unsupported .plus "SequenceResults" "int")) := by
  intro step
  have hany : ∃ m ∈ history listSum step none [] (some .tagged) none,
      m.operandsFound = some ("<root>", [some true, some false]) := by
    decide +kernel
  have herror : (failure? (traverse listSum step none [] (some .tagged)).outcome).bind
      Failure.stepError? = some (.unsupported .plus "SequenceResults" "int") := by
    decide +kernel
  refine ⟨by decide, ?_, Failure.eq_error_of_stepError? herror⟩
  obtain ⟨m, hmem, hm⟩ := hany
  cases m with
  | logged line => cases hm
  | called node path acc answer => cases hm
  | closed node path failure => cases hm
  | resumed node path children reply =>
    refine ⟨node, path, children, reply, hmem, ?_⟩
    rintro ⟨x, hx⟩
    simp [Moment.operandsFound, hx] at hm

end TreeWalk
