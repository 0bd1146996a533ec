import TreeWalk.Proofs.Schedule

/-! # How a walk ends

A walk goes by its schedule until something abnormal happens: a step fails, or it
breaks its contract when it is resumed.  That ends the walk, and its outcome is
decided by what happened; nothing comes after it but the closing of a step that
suspended twice and the report of a breach.

## Key results

* `Verdict` says how what happened last decides the failure and the error lines.
* `Visit.ends` finds the verdict of a visit, `Visit.rootResult` its result.
* `traverse_outcome` is the outcome of a whole walk.
-/

namespace TreeWalk

variable {σ ε α : Type}

/-! ## Steps and lines -/

namespace Moment

/-- Whether the moment is one of the step, not of the log. -/
def isStep : Moment ε α → Bool
  | .logged _ => false
  | _ => true

/-- The line that was logged, if that is what happened. -/
def line? : Moment ε α → Option String
  | .logged line => some line
  | _ => none

/-- Whether all is well: a call does not fail, and a resumption gives a result. -/
def IsNormal : Moment ε α → Prop
  | .called _ _ _ answer => ∀ e, answer ≠ .failed e
  | .resumed _ _ _ reply => ∃ result, reply = .finished (some result)
  | .logged _ | .closed .. => False

end Moment

/-- The moments of the step among some moments. -/
def stepsOf (moments : List (Moment ε α)) : List (Moment ε α) :=
  moments.filter Moment.isStep

/-- Whether a line reports an error. -/
def isErrorLine (line : String) : Bool :=
  Severity.error.mark.toList.isPrefixOf line.toList

/-- The error lines among some moments. -/
def errorLines (moments : List (Moment ε α)) : List String :=
  (moments.filterMap Moment.line?).filter isErrorLine

/-- The doings of the step in moments one after the other. -/
@[simp] theorem stepsOf_append (xs ys : List (Moment ε α)) :
    stepsOf (xs ++ ys) = stepsOf xs ++ stepsOf ys :=
  List.filter_append ..

/-- The error lines in moments one after the other. -/
@[simp] theorem errorLines_append (xs ys : List (Moment ε α)) :
    errorLines (xs ++ ys) = errorLines xs ++ errorLines ys := by
  unfold errorLines
  rw [List.filterMap_append, List.filter_append]

/-- Lines that are logged are no doings of the step. -/
@[simp] theorem stepsOf_loggedLines (verbosity : Option VerbositySetting) (severity : Severity)
    (message : String) :
    stepsOf (loggedLines verbosity severity message : List (Moment ε α)) = [] :=
  filter_loggedLines (fun _ => rfl) ..

/-- What is logged on entering a node is no error. -/
theorem errorLines_entryLines (a : Adapter) (verbosity : Option VerbositySetting)
    (path : List PathEntry) (node : Value) :
    errorLines (entryLines a verbosity path node : List (Moment ε α)) = [] := by
  -- The mark of a message for debugging is not that of an error.
  have hmark : ∀ message, isErrorLine (Severity.debug.mark ++ message) = false := by
    intro message
    unfold isErrorLine
    rw [String.toList_append]
    rfl
  cases verbosity with
  | none => rfl
  | some v =>
    unfold errorLines entryLines loggedLines VerbositySetting.lines
    by_cases hshown : v.shows .debug = true
    · simp [hshown, Moment.line?, hmark]
    · simp [hshown]

/-- The error lines that report a breach: one with its message if there is a logger,
    whatever its verbosity. -/
def report (verbosity : Option VerbositySetting) (breach : Breach) (place : Place) :
    List String :=
  match verbosity with
  | some _ => [Severity.error.mark ++ breach.message place]
  | none => []

/-- The lines about a breach are its report, which every level shows. -/
theorem errorLines_breachLines (a : Adapter) (verbosity : Option VerbositySetting)
    (path : List PathEntry) (node : Value) (breach : Breach) :
    errorLines (breachLines a verbosity path node breach : List (Moment ε α)) =
      report verbosity breach (a.placeOf path node) := by
  have hmark : ∀ message, isErrorLine (Severity.error.mark ++ message) = true := by
    intro message
    unfold isErrorLine
    rw [String.toList_append, List.isPrefixOf_iff_prefix]
    exact List.prefix_append _ _
  cases verbosity with
  | none => rfl
  | some v =>
    have hshown : v.lines .error (breach.message (a.placeOf path node)) =
        [Severity.error.mark ++ breach.message (a.placeOf path node)] := rfl
    simp [errorLines, breachLines, loggedLines, hshown, Moment.line?, hmark, report]

/-! ## Verdicts -/

/-- How what happened last decides the failure of a walk and the error lines.  If
    nothing abnormal happened there is no failure.  A failure of the step, also when
    it is closed, is that of the walk and is not reported; a breach is, with the kind
    and the path of the node. -/
inductive Verdict (a : Adapter) (verbosity : Option VerbositySetting) :
    List (Moment ε α) → Option (Failure ε) → List String → Prop where
  | normal : Verdict a verbosity [] none []
  | callFailed (node path acc) (e : ε) : Verdict a verbosity
      [.called node path acc (.failed e)] (some (.step e)) []
  | resumptionFailed (node path children) (e : ε) : Verdict a verbosity
      [.resumed node path children (.failed e)] (some (.step e)) []
  | closeFailed (node path children) (e : ε) : Verdict a verbosity
      [.resumed node path children .suspended, .closed node path (some e)] (some (.step e)) []
  | suspendedTwice (node path children) : Verdict a verbosity
      [.resumed node path children .suspended, .closed node path none]
      (some (.breach .suspendedTwice (a.placeOf path node)))
      (report verbosity .suspendedTwice (a.placeOf path node))
  | missingResult (node path children) : Verdict a verbosity
      [.resumed node path children (.finished none)]
      (some (.breach .missingResult (a.placeOf path node)))
      (report verbosity .missingResult (a.placeOf path node))

/-- Some moments come to an end: those of the step are normal but for the last, which
    decide the failure and the error lines. -/
def Ends (a : Adapter) (verbosity : Option VerbositySetting) (moments : List (Moment ε α))
    (failure : Option (Failure ε)) : Prop :=
  ∃ normal final, stepsOf moments = normal ++ final ∧ (∀ m ∈ normal, m.IsNormal) ∧
    Verdict a verbosity final failure (errorLines moments)

variable {a : Adapter} {verbosity : Option VerbositySetting}

/-- There is a failure exactly if something abnormal happened. -/
theorem Verdict.exists_abnormal_iff {final : List (Moment ε α)} {failure : Option (Failure ε)}
    {errors : List String} (h : Verdict a verbosity final failure errors) :
    failure.isSome = true ↔ ∃ m ∈ final, ¬ m.IsNormal := by
  cases h with
  | normal => simp
  | callFailed node path acc e => simp [Moment.IsNormal]
  | resumptionFailed node path children e => simp [Moment.IsNormal]
  | closeFailed node path children e => simp [Moment.IsNormal]
  | suspendedTwice node path children => simp [Moment.IsNormal]
  | missingResult node path children => simp [Moment.IsNormal]

namespace Ends

/-- Moments that come to a normal end may stand before others. -/
theorem append {xs ys : List (Moment ε α)} {failure : Option (Failure ε)}
    (hxs : Ends a verbosity xs none) (hys : Ends a verbosity ys failure) :
    Ends a verbosity (xs ++ ys) failure := by
  obtain ⟨normal, final, hsteps, hnormal, hverdict⟩ := hxs
  obtain ⟨normal', final', hsteps', hnormal', hverdict'⟩ := hys
  -- Without a failure the verdict on the first moments is that nothing went wrong.
  generalize herrors : errorLines xs = errors at hverdict
  cases hverdict with
  | normal =>
    refine ⟨normal ++ normal', final', ?_, ?_, ?_⟩
    · rw [stepsOf_append, hsteps, hsteps', List.append_nil, List.append_assoc]
    · intro m hm
      rcases List.mem_append.mp hm with hm | hm
      · exact hnormal m hm
      · exact hnormal' m hm
    · rw [errorLines_append, herrors]
      exact hverdict'

/-- The lines about an entry end nothing. -/
theorem entryLines (path : List PathEntry) (node : Value) :
    Ends a verbosity (entryLines a verbosity path node : List (Moment ε α)) none := by
  refine ⟨[], [], stepsOf_loggedLines .., fun m hm => absurd hm List.not_mem_nil, ?_⟩
  rw [errorLines_entryLines]
  exact .normal

/-- A call that does not raise ends nothing. -/
theorem called {node : Value} {path : List PathEntry} {acc : Option α} {answer : Answer ε α}
    (h : ∀ e, answer ≠ .failed e) :
    Ends a verbosity [.called node path acc answer] none := by
  refine ⟨[.called node path acc answer], [], rfl, ?_, .normal⟩
  intro m hm
  obtain rfl := List.mem_singleton.mp hm
  exact h

end Ends

/-- There is a failure exactly if something abnormal happened to the step. -/
theorem Ends.exists_abnormal_iff {moments : List (Moment ε α)} {failure : Option (Failure ε)}
    (h : Ends a verbosity moments failure) :
    failure.isSome = true ↔ ∃ m ∈ stepsOf moments, ¬ m.IsNormal := by
  obtain ⟨normal, final, hsteps, hnormal, hverdict⟩ := h
  rw [hverdict.exists_abnormal_iff, hsteps]
  constructor
  · intro ⟨m, hm, habnormal⟩
    exact ⟨m, List.mem_append_right normal hm, habnormal⟩
  · intro ⟨m, hm, habnormal⟩
    rcases List.mem_append.mp hm with hm | hm
    · exact absurd (hnormal m hm) habnormal
    · exact ⟨m, hm, habnormal⟩

/-- The second phase of a step ends by a verdict. -/
theorem Resumption.ends {path : List PathEntry} {node : Value} {children : Children α}
    {moments : List (Moment ε α)} {fin : Except (Failure ε) (Option α)}
    (h : Resumption a verbosity path node children moments fin) :
    Ends a verbosity moments (failure? fin) := by
  have hnone : ∀ m ∈ ([] : List (Moment ε α)), m.IsNormal :=
    fun m hm => absurd hm List.not_mem_nil
  -- A resumption ends in one of five ways, of which only one is normal.
  cases h with
  | failed e => exact ⟨[], _, rfl, hnone, .resumptionFailed node path children e⟩
  | finished result =>
    refine ⟨[.resumed node path children (.finished (some result))], [], rfl, ?_, .normal⟩
    intro m hm
    obtain rfl := List.mem_singleton.mp hm
    exact ⟨result, rfl⟩
  | missing =>
    refine ⟨[], [.resumed node path children (.finished none)], ?_, hnone, ?_⟩
    · show _ :: stepsOf (breachLines ..) = _
      rw [breachLines, stepsOf_loggedLines]
      rfl
    · show Verdict a verbosity _ _ (errorLines (breachLines ..))
      rw [errorLines_breachLines]
      exact .missingResult node path children
  | closeFailed e => exact ⟨[], _, rfl, hnone, .closeFailed node path children e⟩
  | closed =>
    refine ⟨[], [.resumed node path children .suspended, .closed node path none], ?_, hnone, ?_⟩
    · show _ :: _ :: stepsOf (breachLines ..) = _
      rw [breachLines, stepsOf_loggedLines]
      rfl
    · show Verdict a verbosity _ _ (errorLines (breachLines ..))
      rw [errorLines_breachLines]
      exact .suspendedTwice node path children

/-- What has a failure has failed with it. -/
theorem eq_error_of_failure? {β : Type} {fin : Except ε β} {e : ε} (h : failure? fin = some e) :
    fin = .error e := by
  cases fin with
  | ok result => cases h
  | error e' => rw [Option.some.inj h]

/-- The error of the step that failed, if that is how a walk ended. -/
def Failure.stepError? : Failure ε → Option ε
  | .step error => some error
  | .breach .. | .noFields _ => none

/-- What has an error of the step has failed with it. -/
theorem Failure.eq_error_of_stepError? {outcome : Except (Failure ε) α} {error : ε}
    (h : (failure? outcome).bind stepError? = some error) : outcome = .error (.step error) := by
  obtain ⟨failure, hfailure, hstep⟩ := Option.bind_eq_some_iff.mp h
  rw [eq_error_of_failure? hfailure]
  cases failure with
  | step error' => rw [Option.some.inj hstep]
  | breach breach place => cases hstep
  | noFields typeName => cases hstep

/-- A mapped end fails as the end does. -/
@[simp] theorem failure?_map {β γ : Type} (fin : Except (Failure ε) β) (f : β → γ) :
    failure? (fin.map f) = failure? fin := by
  cases fin <;> rfl

mutual

/-- The visit of a node ends by a verdict. -/
theorem Visit.ends {path : List PathEntry} {acc : Option α} {node : Value}
    {moments : List (Moment ε α)} {fin : Except (Failure ε) (Option α)}
    (h : Visit a verbosity path acc node moments fin) (hnode : a.isNode node = true) :
    Ends a verbosity moments (failure? fin) := by
  have hentry : Ends a verbosity (entryLines a verbosity path node : List (Moment ε α)) none :=
    .entryLines path node
  have hcalled : ∀ answer : Answer ε α, (∀ e, answer ≠ .failed e) →
      Ends a verbosity [.called node path acc answer] none :=
    fun _ => Ends.called
  match h with
  | .failed e =>
    refine hentry.append ⟨[], [.called node path acc (.failed e)], rfl, ?_, ?_⟩
    · exact fun m hm => absurd hm List.not_mem_nil
    · exact .callFailed node path acc e
  | .sealed answer hanswer hchildren =>
    -- The fields of a node can be listed.
    obtain ⟨children, hsome⟩ := Adapter.exists_children?_of_isNode hnode
    rw [hchildren] at hsome
    cases hsome
  | .finished result hchildren hinner =>
    have hcalled' := hcalled (.finished result) (by simp)
    have hbelow := hinner.ends (isNode_of_mem_children? hchildren)
    rw [failure?_map]
    exact hentry.append (hcalled'.append hbelow)
  | .interrupted yielded failure hchildren hinner =>
    have hcalled' := hcalled (.suspended yielded) (by simp)
    have hbelow := hinner.ends (isNode_of_mem_children? hchildren)
    exact hentry.append (hcalled'.append hbelow)
  | .resumed yielded hchildren hinner hafter =>
    have hcalled' := hcalled (.suspended yielded) (by simp)
    have hbelow := hinner.ends (isNode_of_mem_children? hchildren)
    exact hentry.append (hcalled'.append (hbelow.append hafter.ends))
termination_by structural h

/-- The visits of children end as the first of them that fails. -/
theorem VisitAll.ends {path : List PathEntry} {acc : Option α} {parent : Value}
    {children : List (Slot × Value)} {moments : List (Moment ε α)}
    {fin : Except (Failure ε) (List (Slot × Option α))}
    (h : VisitAll a verbosity path parent acc children moments fin)
    (hnodes : ∀ child ∈ children, a.isNode child.2 = true) :
    Ends a verbosity moments (failure? fin) := by
  match h with
  | .nil => exact ⟨[], [], rfl, fun m hm => absurd hm List.not_mem_nil, .normal⟩
  | .failed slot child rest hfirst => exact hfirst.ends (hnodes (slot, child) List.mem_cons_self)
  | .cons slot child rest hfirst hrest =>
    have hfirst' := hfirst.ends (hnodes (slot, child) List.mem_cons_self)
    have hrest' := hrest.ends fun sibling hmem => hnodes sibling (List.mem_cons_of_mem _ hmem)
    rw [failure?_map]
    exact hfirst'.append hrest'
termination_by structural h

end

/-! ## Results -/

/-- The result that a walk owes to its root: that of the root's call if it finished,
    otherwise that of its resumption, which comes last. -/
inductive RootResult (root : Value) (init : Option α) :
    List (Moment ε α) → Option α → Prop where
  | finished (inner : List (Moment ε α)) (result : Option α) :
      RootResult root init (.called root [] init (.finished result) :: inner) result
  | resumed (inner : List (Moment ε α)) (yielded : Option α) (children : Children α)
      (result : α) :
      RootResult root init (.called root [] init (.suspended yielded) ::
        (inner ++ [.resumed root [] children (.finished (some result))])) (some result)

/-- A walk that ends normally gives the result of its root. -/
theorem Visit.rootResult {root : Value} {init result : Option α} {moments : List (Moment ε α)}
    (h : Visit a verbosity [] init root moments (.ok result)) :
    RootResult root init (stepsOf moments) result := by
  -- Only two rules end normally, and the second only if the resumption does.
  generalize hfin : Except.ok result = fin at h
  cases h with
  | failed e => cases hfin
  | sealed answer hanswer hchildren => cases hfin
  | interrupted yielded failure hchildren hinner => cases hfin
  | finished result' hchildren hinner =>
    obtain ⟨visits, -, hresult⟩ := exists_of_map_eq_ok hfin.symm
    rw [stepsOf_append, entryLines, stepsOf_loggedLines, ← hresult]
    exact .finished _ result'
  | resumed yielded hchildren hinner hafter =>
    cases hafter with
    | finished result' =>
      obtain rfl := Except.ok.inj hfin
      rw [stepsOf_append, entryLines, stepsOf_loggedLines, List.nil_append]
      show RootResult root init (_ :: stepsOf (_ ++ _)) _
      rw [stepsOf_append]
      exact .resumed _ yielded _ result'
    | failed e => cases hfin
    | missing => cases hfin
    | closeFailed e => cases hfin
    | closed => cases hfin

/-! ## Whole walks -/

/-- If the root of a walk is a node, what happens to the step is normal but for the
    last, which decides the failure and the error lines.  There is a failure exactly
    if something abnormal happened; until then the walk keeps to the schedule of the
    root, and it completes it if it does not fail.  A walk that does not fail gives
    the result of its root. -/
theorem traverse_outcome (root : Value) (step : Step σ ε α) (init : Option α) (own : σ)
    (adapter : Option Adapter) (logger : Option (Logger σ))
    (hroot : (adapter.getD (.default root)).isNode root = true) :
    let a := adapter.getD (.default root)
    let moments := history root step init own adapter logger
    let fin := (traverse root step init own adapter logger).outcome
    Ends a (logger.map Logger.verbosity) moments (failure? fin) ∧
      ((failure? fin).isSome = true ↔ ∃ m ∈ stepsOf moments, ¬ m.IsNormal) ∧
      (∃ rest, Schedule a [] root (turns moments ++ rest) ∧
        ∀ result, fin = .ok result → rest = []) ∧
      ∀ result, fin = .ok result → RootResult root init (stepsOf moments) result := by
  intro a moments fin
  have hvisit : Visit a (logger.map Logger.verbosity) [] init root moments fin :=
    (visit_history root step init own adapter logger).1
  have hends : Ends a (logger.map Logger.verbosity) moments (failure? fin) := hvisit.ends hroot
  -- A root that is a node is read, so that there is a schedule to follow.
  have hreads : a.children? root ≠ none := by
    obtain ⟨children, hchildren⟩ := Adapter.exists_children?_of_isNode hroot
    rw [hchildren]
    exact Option.some_ne_none children
  refine ⟨hends, hends.exists_abnormal_iff, hvisit.turns_prefix hreads, ?_⟩
  intro result hresult
  rw [hresult] at hvisit
  exact hvisit.rootResult

/-- A step that never gives a result breaks its contract within `1 + 2`, and the
    breach is the abnormal moment of the walk. -/
theorem traverse_outcome_onePlusTwo :
    let step : Step Unit Unit Nat := Step.bottomUp fun _ _ _ => return none
    let fin := (traverse onePlusTwo step none () none none).outcome
    let moments := history onePlusTwo step none () none none
    Adapter.tagged.isNode onePlusTwo = true ∧ (failure? fin).isSome = true ∧
      Ends .tagged none moments (failure? fin) ∧ ∃ m ∈ stepsOf moments, ¬ m.IsNormal := by
  intro step fin moments
  have hroot : Adapter.tagged.isNode onePlusTwo = true := by decide +kernel
  have hfails : (failure? fin).isSome = true := by decide +kernel
  have houtcome := traverse_outcome onePlusTwo step none () none none hroot
  exact ⟨hroot, hfails, houtcome.1, houtcome.2.1.mp hfails⟩

end TreeWalk
