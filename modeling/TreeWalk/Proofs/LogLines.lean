import TreeWalk.Logged
import TreeWalk.Proofs.Outcome
import TreeWalk.Proofs.Preorder
import TreeWalk.Proofs.Watching

/-! # What is logged of a walk

A logger only observes: to a step that does not see what the logger does with its lines, a
walk is the same with a logger of whatever verbosity and without one.  The lines themselves
can be told from what happens without a logger.  At the verbose level every call is announced
just before it is made, and at every level the breach that ends a walk is reported at its end.

## Key results

* `Step.Extends.history_agree` says that what happens to a step does not depend on a logger
  that touches nothing the step sees.
* `traverseLogged_eq` says that a walk with a log ends as the walk without one.
* `Visit.announced` tells the moments of a visit, lines included, from those of the step.
* `history_logged` says so of whole walks and gives the lines of every verbosity.
-/

namespace TreeWalk

variable {σ ε α β ρ : Type}

/-! ## Steps that do not see the lines -/

/-- The state of a step may hold, seen through `see`, the state of another step and something
    besides.  The step extends the other if it does what the other does and neither looks at
    the rest nor lets it matter. -/
def Step.Extends (step : Step σ ε α) (see : σ → ρ) (inner : Step ρ ε α) : Prop :=
  Step.Agree (.same fun s own => see s = own) step inner

/-- Whether handing lines to a logger, if there is one, changes nothing that is seen. -/
def Spares (see : σ → ρ) (logger : Option (Logger σ)) : Prop :=
  ∀ l ∈ logger, ∀ line s, see (l.emit line s) = see s

/-- A message changes nothing that is seen, however many lines it gives. -/
theorem Logger.see_log {see : σ → ρ} {logger : Logger σ}
    (h : ∀ line s, see (logger.emit line s) = see s) (severity : Severity) (message : String)
    (s : σ) : see (logger.log severity message s) = see s := by
  unfold log
  -- The induction is on the lines; the state varies with them.
  generalize logger.verbosity.lines severity message = lines
  induction lines generalizing s with
  | nil => rfl
  | cons line rest ih => rw [List.foldl_cons, ih, h]

/-- A watched step and the watched step that it extends are alike if what is seen of the state
    is the state of the other and the same has happened to both, lines left aside. -/
private abbrev seenAs (see : σ → ρ) : Likeness (Watched σ ε α) (Watched ρ ε α) :=
  (Likeness.same fun s own => see s = own).watched fun seen seen' => stepsOf seen = stepsOf seen'

/-- The doings of the step stay the same when both sides record the same moment. -/
private theorem keeps_stepsOf (R : σ → ρ → Prop) :
    (Likeness.same R).Keeps fun seen seen' : List (Moment ε α) =>
      stepsOf seen = stepsOf seen' := by
  intro seen seen' m m' hseen hm
  -- Contexts and nodes are alike only if they are the same.
  have heq : m = m' := by
    cases hm with
    | called acc answer hnode hcontext =>
      obtain rfl := hnode
      obtain rfl := hcontext
      rfl
    | resumed children reply hnode hcontext =>
      obtain rfl := hnode
      obtain rfl := hcontext
      rfl
    | closed failure hnode hcontext =>
      obtain rfl := hnode
      obtain rfl := hcontext
      rfl
  rw [stepsOf_append, stepsOf_append, hseen, heq]

/-- A watched logger that changes nothing that is seen adds nothing but lines. -/
private theorem log_seenAs {see : σ → ρ} {w : Walker σ ε α} (h : Spares see w.logger)
    (severity : Severity) (message : String) (s : WalkState (Watched σ ε α)) :
    ∃ own, w.watched.log severity message s = .ok () ⟨s.path, own⟩ ∧
      see own.own = see s.own.own ∧ stepsOf own.seen = stepsOf s.own.seen := by
  cases hl : w.logger with
  | none =>
    refine ⟨s.own, ?_, rfl, rfl⟩
    simp only [Walker.log, Walker.watched, hl, Option.map_none]
    rfl
  | some logger =>
    refine ⟨(Logger.watched logger).log severity message s.own, ?_, ?_, ?_⟩
    · simp only [Walker.log, Walker.watched, hl, Option.map_some]
      rfl
    · -- What the logger does is seen in the lines only, which are none of the doings of the step.
      rw [Logger.log_watched]
      exact Logger.see_log (h logger (by simp [hl])) severity message s.own.own
    · have hlines :=
        stepsOf_loggedLines (ε := ε) (α := α) (some logger.verbosity) severity message
      rw [Logger.log_watched, stepsOf_append]
      show _ ++ stepsOf (loggedLines (some logger.verbosity) severity message) = _
      rw [hlines, List.append_nil]

/-- With whatever logger that changes nothing that is seen, a walk goes for the step as it does
    for the step that it extends without a logger: the same calls, resumptions and closes, the
    same outcome, and the final state of the other is what is seen in the end. -/
theorem Step.Extends.history_agree {see : σ → ρ} {step : Step σ ε α} {inner : Step ρ ε α}
    (hstep : step.Extends see inner) {logger : Option (Logger σ)} (hlogger : Spares see logger)
    (root : Value) (init : Option α) (own : σ) (adapter : Option Adapter) :
    stepsOf (history root step init own adapter logger) =
        stepsOf (history root inner init (see own) adapter none) ∧
      (traverse root step init own adapter logger).outcome =
        (traverse root inner init (see own) adapter none).outcome ∧
      see (traverse root step init own adapter logger).own =
        (traverse root inner init (see own) adapter none).own := by
  have hwalker : Walker.Agree (seenAs see)
      (traverseWalker root step.watched adapter (logger.map Logger.watched))
      (traverseWalker root inner.watched adapter ((none : Option (Logger ρ)).map .watched)) := by
    refine ⟨Likeness.lawful_same _ _, hstep.watched (keeps_stepsOf _), ?_⟩
    intro severity message s s' ⟨hpath, hown, hseen⟩
    obtain ⟨own, hlog, hsee, hsteps⟩ :=
      log_seenAs (w := traverseWalker root step adapter logger) hlogger severity message s
    -- A walker with a watched step and a watched logger is a watched walker.
    change (traverseWalker root step.watched adapter (logger.map Logger.watched)).log severity
      message s = _ at hlog
    rw [hlog]
    exact ⟨rfl, hpath, hsee.trans hown, hsteps.trans hseen⟩
  exact TreeWalk.history_agree init hwalker rfl rfl rfl (.refl (fun _ => rfl) _)

/-! ## Steps beside a log -/

/-- What is done beside a log is what is done without one. -/
private theorem lift_extends (m : EStateM ε σ β) :
    Agree (fun (s : Logged σ) own => s.own = own) Eq (Logged.lift m) m := by
  intro s own hown
  obtain rfl : s.own = own := hown
  cases hr : m s.own with
  | ok b t =>
    rw [Logged.lift_ok hr]
    exact ⟨rfl, rfl⟩
  | error e t =>
    rw [Logged.lift_error hr]
    exact ⟨rfl, rfl⟩

/-- A resumed step beside a log goes on as without one. -/
private theorem resumed_extends (resumed : Resumed σ ε α) :
    Resumed.Agree (.same fun (s : Logged σ) own => s.own = own) resumed.logged resumed := by
  cases resumed with
  | finished result => exact .finished result
  | suspended close =>
    refine .suspended fun context context' hcontext => ?_
    obtain rfl : context = context' := hcontext
    exact lift_extends (close context)

/-- A started step beside a log goes on as without one. -/
private theorem started_extends (started : Started σ ε α) :
    Started.Agree (.same fun (s : Logged σ) own => s.own = own) started.logged started := by
  cases started with
  | finished result => exact .finished result
  | suspended yielded resume =>
    refine .suspended yielded fun children context context' hcontext => ?_
    obtain rfl : context = context' := hcontext
    refine (lift_extends (resume children context)).map_left ?_
    intro resumed resumed' heq
    rw [← heq]
    exact resumed_extends resumed

/-- A step beside a log extends the step. -/
theorem Step.logged_extends (step : Step σ ε α) : step.logged.Extends Logged.own step := by
  intro node node' acc context context' hnode hcontext
  obtain rfl : node = node' := hnode
  obtain rfl : context = context' := hcontext
  unfold Step.start Step.logged
  rw [bind_assoc]
  refine (lift_extends (step node acc context)).bind_eq ?_
  intro outcome
  rw [pure_bind]
  -- A step that returned is finished, and a routine is started in turn.
  cases outcome with
  | returned result => exact .pure (.finished result)
  | routine start =>
    refine (lift_extends start).map_left ?_
    intro started started' heq
    rw [← heq]
    exact started_extends started

/-- The appending logger touches nothing but the log. -/
theorem Logger.spares_appending (verbosity : Option VerbositySetting) :
    Spares (σ := Logged σ) Logged.own (verbosity.map Logger.appending) := by
  intro logger hlogger line s
  obtain ⟨v, -, rfl⟩ := Option.map_eq_some_iff.mp hlogger
  rfl

/-- A walk with a log ends as the walk without one. -/
theorem traverseLogged_eq (root : Value) (step : Step σ ε α) (init : Option α) (own : σ)
    (adapter : Option Adapter) (verbosity : Option VerbositySetting) :
    (traverseLogged root step init own adapter verbosity).outcome =
        (traverse root step init own adapter none).outcome ∧
      (traverseLogged root step init own adapter verbosity).own.own =
        (traverse root step init own adapter none).own :=
  (step.logged_extends.history_agree (Logger.spares_appending verbosity) root init { own }
    adapter).2

/-! ## The lines -/

/-- The lines among some moments. -/
def linesOf (moments : List (Moment ε α)) : List String :=
  moments.filterMap Moment.line?

/-- The lines among moments one after the other. -/
@[simp] theorem linesOf_append (xs ys : List (Moment ε α)) :
    linesOf (xs ++ ys) = linesOf xs ++ linesOf ys :=
  List.filterMap_append

/-- Lines that were logged are the lines among their moments. -/
@[simp] theorem linesOf_map_logged (lines : List String) :
    linesOf (lines.map (Moment.logged (ε := ε) (α := α))) = lines := by
  induction lines with
  | nil => rfl
  | cons line rest ih => exact congrArg (line :: ·) ih

/-- There are no lines among the moments of a step. -/
@[simp] theorem linesOf_stepsOf (moments : List (Moment ε α)) :
    linesOf (stepsOf moments) = [] := by
  refine List.filterMap_eq_nil_iff.mpr ?_
  intro m hm
  have hstep := (List.mem_filter.mp hm).2
  cases m with
  | logged line => cases hstep
  | called node path acc answer => rfl
  | resumed node path children reply => rfl
  | closed node path failure => rfl

/-- The moment with the lines that go before it: a call is announced. -/
def Moment.announced (a : Adapter) (verbosity : Option VerbositySetting) :
    Moment ε α → List (Moment ε α)
  | .called node path acc answer =>
    entryLines a verbosity path node ++ [.called node path acc answer]
  | m => [m]

/-- What is logged of a failure that ends a walk: a breach is reported. -/
def closingLines (verbosity : Option VerbositySetting) :
    Option (Failure ε) → List (Moment ε α)
  | some (.breach breach place) => loggedLines verbosity .error (breach.message place)
  | some (.step _) | some (.noFields _) | none => []

/-- Some moments are those of the step, announced, followed by closing lines. -/
def Announced (a : Adapter) (verbosity : Option VerbositySetting)
    (moments closing : List (Moment ε α)) : Prop :=
  moments = (stepsOf moments).flatMap (Moment.announced a verbosity) ++ closing

section

variable {a : Adapter} {verbosity : Option VerbositySetting}

namespace Announced

/-- Where nothing happens, nothing is announced. -/
theorem nil : Announced a verbosity ([] : List (Moment ε α)) [] :=
  rfl

/-- Moments without closing lines may stand before others. -/
theorem append {xs ys closing : List (Moment ε α)} (hxs : Announced a verbosity xs [])
    (hys : Announced a verbosity ys closing) : Announced a verbosity (xs ++ ys) closing := by
  unfold Announced at *
  rw [List.append_nil] at hxs
  rw [stepsOf_append, List.flatMap_append, List.append_assoc, ← hxs, ← hys]

/-- A call is announced by the lines that are logged on entering its node. -/
theorem called (path : List PathEntry) (node : Value) (acc : Option α) (answer : Answer ε α) :
    Announced a verbosity (entryLines a verbosity path node ++ [.called node path acc answer])
      [] := by
  have hsteps : stepsOf (entryLines a verbosity path node ++ [.called node path acc answer]) =
      [.called node path acc answer] := by
    rw [stepsOf_append, entryLines, stepsOf_loggedLines]
    rfl
  unfold Announced
  rw [hsteps, List.flatMap_singleton, List.append_nil]
  rfl

end Announced

/-- A second phase is not announced; a breach is reported after it. -/
theorem Resumption.announced {path : List PathEntry} {node : Value} {children : Children α}
    {moments : List (Moment ε α)} {fin : Except (Failure ε) (Option α)}
    (h : Resumption a verbosity path node children moments fin) :
    Announced a verbosity moments (closingLines verbosity (failure? fin)) := by
  -- The lines about a breach are no doings of the step, so nothing is announced by them.
  have hbreach : ∀ breach,
      stepsOf (breachLines a verbosity path node breach : List (Moment ε α)) = [] :=
    fun breach => stepsOf_loggedLines ..
  cases h with
  | failed e => rfl
  | finished result => rfl
  | missing =>
    show _ :: _ = List.flatMap _ (_ :: stepsOf (breachLines ..)) ++ _
    rw [hbreach]
    rfl
  | closeFailed e => rfl
  | closed =>
    show _ :: _ :: _ = List.flatMap _ (_ :: _ :: stepsOf (breachLines ..)) ++ _
    rw [hbreach]
    rfl

mutual

/-- The moments of a visit are those of the step, each call announced, and the report of the
    breach if the visit ends by one. -/
theorem Visit.announced {path : List PathEntry} {acc : Option α} {node : Value}
    {moments : List (Moment ε α)} {fin : Except (Failure ε) (Option α)}
    (h : Visit a verbosity path acc node moments fin) :
    Announced a verbosity moments (closingLines verbosity (failure? fin)) := by
  have hcalled : ∀ answer : Answer ε α, Announced a verbosity
      (entryLines a verbosity path node ++ [.called node path acc answer]) [] :=
    Announced.called path node acc
  match h with
  | .failed e => exact hcalled (.failed e)
  | .sealed answer hanswer hchildren => exact hcalled answer
  | .finished result hchildren hinner =>
    rw [failure?_map, List.append_cons]
    exact (hcalled (.finished result)).append hinner.announced
  | .interrupted yielded failure hchildren hinner =>
    rw [List.append_cons]
    exact (hcalled (.suspended yielded)).append hinner.announced
  | .resumed yielded hchildren hinner hafter =>
    -- The children were visited without a breach, so nothing is reported before the node is
    -- resumed.
    rw [List.append_cons]
    exact (hcalled (.suspended yielded)).append (hinner.announced.append hafter.announced)
termination_by structural h

/-- What happens in the visits of children is announced, and a failure at the end. -/
theorem VisitAll.announced {path : List PathEntry} {acc : Option α} {parent : Value}
    {children : List (Slot × Value)} {moments : List (Moment ε α)}
    {fin : Except (Failure ε) (List (Slot × Option α))}
    (h : VisitAll a verbosity path parent acc children moments fin) :
    Announced a verbosity moments (closingLines verbosity (failure? fin)) := by
  match h with
  | .nil => exact .nil
  | .failed slot child rest hfirst => exact hfirst.announced
  | .cons slot child rest hfirst hrest =>
    rw [failure?_map]
    exact hfirst.announced.append hrest.announced
termination_by structural h

end

end

/-! ## Whole walks -/

/-- The line that announces a call at the verbose level. -/
def Moment.announcement (a : Adapter) : Moment ε α → List String
  | .called node path _ _ => ["[verbose] enter " ++ (a.kindOf node).getD "None" ++ " at " ++
      Context.describe { path, adapter := some a }]
  | .logged _ | .resumed .. | .closed .. => []

/-- The line that reports a failure, if it is a breach. -/
def breachReport : Option (Failure ε) → List String
  | some (.breach breach place) => ["[error] " ++ breach.message place]
  | some (.step _) | some (.noFields _) | none => []

/-- Whether a line announces a call. -/
def isEntryLine (line : String) : Bool :=
  "[verbose] enter ".toList.isPrefixOf line.toList

section

variable {a : Adapter}

/-- At the verbose level a call is announced by one line. -/
private theorem announced_verbose (m : Moment ε α) :
    m.announced a (some (.level .verbose)) = (m.announcement a).map .logged ++ [m] := by
  -- Only a call is announced, by the line about the entry.
  cases m with
  | called node path acc answer =>
    have hline : "[verbose] " ++ ("enter " ++ (a.kindOf node).getD "None" ++ " at " ++
        a.location path) = "[verbose] enter " ++ (a.kindOf node).getD "None" ++ " at " ++
        a.location path := by
      have hmark : "[verbose] enter " = "[verbose] " ++ "enter " := rfl
      rw [hmark]
      simp only [String.append_assoc]
    show [(.logged ("[verbose] " ++ _) : Moment ε α)] ++ [_] = _
    rw [hline]
    rfl
  | logged line => rfl
  | resumed node path children reply => rfl
  | closed node path failure => rfl

/-- At the other levels, and without a logger, nothing is announced. -/
private theorem announced_of_not_verbose {verbosity : Option VerbositySetting}
    (h : ∀ v ∈ verbosity, v.isVerbose = false) (m : Moment ε α) :
    m.announced a verbosity = [m] := by
  -- The line about an entry is a message for debugging, which no other level shows.
  have hentry : ∀ path node, (entryLines a verbosity path node : List (Moment ε α)) = [] := by
    intro path node
    cases verbosity with
    | none => rfl
    | some v =>
      have hhidden : v.shows .debug = false := h v rfl
      simp [entryLines, loggedLines, VerbositySetting.lines, hhidden]
  cases m with
  | called node path acc answer =>
    show entryLines .. ++ _ = _
    rw [hentry]
    rfl
  | logged line => rfl
  | resumed node path children reply => rfl
  | closed node path failure => rfl

/-- Where nothing is announced, only the closing lines come on top of the step's moments. -/
theorem Announced.of_not_verbose {verbosity : Option VerbositySetting}
    {moments closing : List (Moment ε α)} (h : Announced a verbosity moments closing)
    (hverbose : ∀ v ∈ verbosity, v.isVerbose = false) :
    moments = stepsOf moments ++ closing := by
  have hsteps : (stepsOf moments).flatMap (Moment.announced a verbosity) = stepsOf moments := by
    rw [List.flatMap_congr fun m _ => announced_of_not_verbose hverbose m]
    exact List.flatMap_singleton' _
  unfold Announced at h
  rwa [hsteps] at h

/-- Without a logger nothing is reported either. -/
private theorem closingLines_none (failure : Option (Failure ε)) :
    (closingLines none failure : List (Moment ε α)) = [] := by
  rcases failure with _ | failure
  · rfl
  · cases failure <;> rfl

/-- A breach is reported at every level. -/
private theorem closingLines_some (v : VerbositySetting) (failure : Option (Failure ε)) :
    closingLines (some v) failure = (breachReport failure).map (Moment.logged (α := α)) := by
  rcases failure with _ | failure
  · rfl
  · cases failure <;> rfl

/-- What announces a moment is a line about an entry. -/
private theorem isEntryLine_of_mem_announcement {m : Moment ε α} :
    ∀ line ∈ m.announcement a, isEntryLine line = true := by
  intro line hline
  cases m with
  | called node path acc answer =>
    obtain rfl := List.mem_singleton.mp hline
    unfold isEntryLine
    rw [List.isPrefixOf_iff_prefix, String.append_assoc, String.append_assoc, String.toList_append]
    exact List.prefix_append _ _
  | logged line => cases hline
  | resumed node path children reply => cases hline
  | closed node path failure => cases hline

/-- What reports a breach is no line about an entry. -/
private theorem not_isEntryLine_of_mem_breachReport {failure : Option (Failure ε)} :
    ∀ line ∈ breachReport failure, isEntryLine line = false := by
  -- The two start differently.
  have hmark : ∀ message, isEntryLine ("[error] " ++ message) = false := by
    intro message
    unfold isEntryLine
    rw [String.toList_append]
    rfl
  intro line hline
  rcases failure with _ | failure
  · cases hline
  · cases failure with
    | step e => cases hline
    | noFields typeName => cases hline
    | breach breach place =>
      obtain rfl := List.mem_singleton.mp hline
      exact hmark _

/-- The lines of announced moments of a step are the announcements. -/
private theorem linesOf_announced {moments : List (Moment ε α)} (h : stepsOf moments = moments) :
    linesOf (moments.flatMap fun m => (m.announcement a).map .logged ++ [m]) =
      moments.flatMap (Moment.announcement a) := by
  have hpiece : ∀ m ∈ moments, linesOf ((m.announcement a).map .logged ++ [m]) =
      m.announcement a := by
    intro m hm
    rw [← h] at hm
    have hstep : stepsOf [m] = [m] := List.filter_cons_of_pos (List.mem_filter.mp hm).2
    rw [linesOf_append, linesOf_map_logged, ← hstep, linesOf_stepsOf, List.append_nil]
  unfold linesOf at hpiece ⊢
  rw [List.filterMap_flatMap, List.flatMap_congr hpiece]

/-- Of the verbose lines the announcements go and the report stays when entries are left out. -/
private theorem filter_not_isEntryLine (moments : List (Moment ε α))
    (failure : Option (Failure ε)) :
    (moments.flatMap (Moment.announcement a) ++ breachReport failure).filter
      (fun line => !isEntryLine line) = breachReport failure := by
  -- The announcements go, and the report stays.
  have hentries : (moments.flatMap (Moment.announcement a)).filter
      (fun line => !isEntryLine line) = [] := by
    refine List.filter_eq_nil_iff.mpr ?_
    intro line hline
    obtain ⟨m, -, hmem⟩ := List.mem_flatMap.mp hline
    simp [isEntryLine_of_mem_announcement line hmem]
  have hreport : (breachReport failure).filter (fun line => !isEntryLine line) =
      breachReport failure := by
    refine List.filter_eq_self.mpr ?_
    intro line hline
    simp [not_isEntryLine_of_mem_breachReport line hline]
  rw [List.filter_append, hentries, hreport, List.nil_append]

end

/-- Without a logger nothing happens in a walk but what happens to the step. -/
theorem stepsOf_history (root : Value) (step : Step σ ε α) (init : Option α) (own : σ)
    (adapter : Option Adapter) :
    stepsOf (history root step init own adapter none) =
      history root step init own adapter none := by
  have hannounced := (visit_history root step init own adapter none).1.announced
  have h := hannounced.of_not_verbose fun v hv => by cases hv
  rw [Option.map_none, closingLines_none, List.append_nil] at h
  exact h.symm

/-- To a step that does not see what is done with the lines, a walk with a logger of any
    verbosity is the walk without one: the same calls, resumptions and closes, the same outcome,
    and what the step sees of the final state is the same.  At the verbose level each call comes
    just after the line that announces it, so that the nodes are announced in pre-order, and after
    everything else comes the report of the breach if the walk ends by one.  At the other levels
    the report is all that is logged: the verbose lines without the announcements. -/
theorem history_logged {see : σ → ρ} {step : Step σ ε α} {inner : Step ρ ε α}
    (hstep : step.Extends see inner) {emit : String → σ → σ}
    (hemit : ∀ line s, see (emit line s) = see s) (root : Value) (init : Option α) (own : σ)
    (adapter : Option Adapter) :
    let a := adapter.getD (.default root)
    let silent := history root step init own adapter none
    let ended := traverse root step init own adapter none
    let moments := fun v => history root step init own adapter (some ⟨v, emit⟩)
    let ending := fun v => traverse root step init own adapter (some ⟨v, emit⟩)
    let report := breachReport (failure? ended.outcome)
    (∀ v, stepsOf (moments v) = silent ∧ (ending v).outcome = ended.outcome ∧
      see (ending v).own = see ended.own) ∧
    moments (.level .verbose) =
      (silent.flatMap fun m => (m.announcement a).map .logged ++ [m]) ++ report.map .logged ∧
    linesOf (moments (.level .verbose)) = silent.flatMap (Moment.announcement a) ++ report ∧
    silent.filterMap Moment.calledAt <+: (a.stops root).map Stop.position ∧
    ∀ v, v.isVerbose = false → moments v = silent ++ report.map .logged ∧
      linesOf (moments v) =
        (linesOf (moments (.level .verbose))).filter fun line => !isEntryLine line := by
  intro a silent ended moments ending report
  have hspares : ∀ v, Spares see (some ⟨v, emit⟩) := by
    intro v logger hlogger
    obtain rfl := Option.some.inj hlogger
    exact hemit
  have hnone : Spares see (none : Option (Logger σ)) := fun logger hlogger => by cases hlogger
  have hsame : ∀ v, stepsOf (moments v) = silent ∧ (ending v).outcome = ended.outcome ∧
      see (ending v).own = see ended.own := by
    intro v
    obtain ⟨hsteps, houtcome, hown⟩ := hstep.history_agree (hspares v) root init own adapter
    obtain ⟨hsteps', houtcome', hown'⟩ := hstep.history_agree hnone root init own adapter
    refine ⟨?_, houtcome.trans houtcome'.symm, hown.trans hown'.symm⟩
    rw [hsteps, ← hsteps']
    exact stepsOf_history root step init own adapter
  -- The moments of a logged walk can be told from those of the step and from the outcome.
  have hannounced : ∀ v, Announced a (some v) (moments v) (report.map .logged) := by
    intro v
    have h := (visit_history root step init own adapter (some ⟨v, emit⟩)).1.announced
    have hfailure : failure? (ending v).outcome = failure? ended.outcome :=
      congrArg failure? (hsame v).2.1
    rwa [hfailure, Option.map_some, closingLines_some] at h
  have hverbose : moments (.level .verbose) =
      (silent.flatMap fun m => (m.announcement a).map .logged ++ [m]) ++ report.map .logged := by
    have h := hannounced (.level .verbose)
    unfold Announced at h
    rwa [(hsame _).1, List.flatMap_congr fun m _ => announced_verbose m] at h
  have hverboseLines : linesOf (moments (.level .verbose)) =
      silent.flatMap (Moment.announcement a) ++ report := by
    rw [hverbose, linesOf_append, linesOf_map_logged]
    rw [linesOf_announced (stepsOf_history root step init own adapter)]
  refine ⟨hsame, hverbose, hverboseLines, calledAt_prefix_history .., ?_⟩
  intro v hquiet
  have hmoments : moments v = silent ++ report.map .logged := by
    have h := (hannounced v).of_not_verbose (by simpa using hquiet)
    rwa [(hsame v).1] at h
  have hlines : linesOf (moments v) = report := by
    have hsilent : linesOf silent = [] := by
      rw [← (hsame v).1]
      exact linesOf_stepsOf _
    rw [hmoments, linesOf_append, hsilent, linesOf_map_logged, List.nil_append]
  refine ⟨hmoments, ?_⟩
  rw [hlines, hverboseLines]
  exact (filter_not_isEntryLine silent _).symm

/-- Within `1 + 2` a step that never gives a result is announced at the root and at the left
    operand, where its breach is reported. -/
theorem history_logged_onePlusTwo :
    let inner : Step Unit Unit Nat := Step.bottomUp fun _ _ _ => return none
    let emit := fun line (s : Logged Unit) => { s with lines := s.lines ++ [line] }
    let moments := history onePlusTwo inner.logged none { own := () } none
      (some ⟨.level .verbose, emit⟩)
    let silent := history onePlusTwo inner.logged none { own := () } none none
    inner.logged.Extends Logged.own inner ∧
      (∀ line s, Logged.own (emit line s) = Logged.own s) ∧ stepsOf moments = silent ∧
      linesOf moments = ["[verbose] enter BinaryExpression at <root>",
        "[verbose] enter NumericLiteral at BinaryExpression.left",
        "[error] Step function must return a value " ++
          "(node 'NumericLiteral' at BinaryExpression.left)"] := by
  intro inner emit moments silent
  have hextends := inner.logged_extends
  have hemit : ∀ line s, Logged.own (emit line s) = Logged.own s := fun _ _ => rfl
  -- Here the step never looks at the log, and the logger leaves alone what it sees.
  have hlogged := history_logged hextends hemit onePlusTwo none { own := () } none
  refine ⟨hextends, hemit, (hlogged.1 _).1, ?_⟩
  decide +kernel

end TreeWalk
