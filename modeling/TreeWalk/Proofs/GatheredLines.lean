import TreeWalk.Proofs.LogLines

/-! # The lines that a walk gathers

A walk with a log gathers its lines beside the state of its step, which never touches them.

## Key results

* `lines_traverseLogged` says that the lines gathered are those logged in the walk.
* `lines_traverseLogged_of_ok` says that below the verbose level there are none unless the walk
  fails.
-/

namespace TreeWalk

variable {σ ε α β γ : Type}

/-! ## Steps never touch the log -/

/-- A computation beside a log never touches the log, and its results have a property. -/
private def SparesLog (P : β → Prop) (m : EStateM ε (Logged σ) β) : Prop :=
  ∀ s, match m s with
    | .ok b t => P b ∧ t.lines = s.lines
    | .error _ t => t.lines = s.lines

/-- What is done beside a log never touches the log. -/
private theorem sparesLog_lift (m : EStateM ε σ β) : SparesLog (fun _ => True) (Logged.lift m) := by
  intro s
  cases hr : m s.own with
  | ok b t =>
    rw [Logged.lift_ok hr]
    exact ⟨trivial, rfl⟩
  | error e t =>
    rw [Logged.lift_error hr]

/-- One computation after another does not touch the log if neither does. -/
private theorem SparesLog.bind {P : β → Prop} {Q : γ → Prop} {m : EStateM ε (Logged σ) β}
    {f : β → EStateM ε (Logged σ) γ} (hm : SparesLog P m) (hf : ∀ b, P b → SparesLog Q (f b)) :
    SparesLog Q (m >>= f) := by
  intro s
  have hfirst := hm s
  cases hr : m s with
  | error e t =>
    rw [hr] at hfirst
    rw [bind_of_error hr]
    exact hfirst
  | ok b t =>
    rw [hr] at hfirst
    rw [bind_of_ok hr]
    have hsecond := hf b hfirst.1 t
    cases hr' : f b t with
    | ok c u =>
      rw [hr'] at hsecond
      exact ⟨hsecond.1, hsecond.2.trans hfirst.2⟩
    | error e u =>
      rw [hr'] at hsecond
      exact hsecond.trans hfirst.2

/-- Nor is the log touched where nothing is done. -/
private theorem SparesLog.pure {P : β → Prop} {b : β} (h : P b) :
    SparesLog (ε := ε) (σ := σ) P (Pure.pure b) :=
  fun _ => ⟨h, rfl⟩

/-- The start of a step beside a log never touches the log, nor does what is left to be done. -/
private theorem sparesLog_start (step : Step σ ε α) (node : Value) (acc : Option α)
    (context : Context) :
    SparesLog (fun started => ∃ inner : Started σ ε α, started = inner.logged)
      (step.logged.start node acc context) := by
  unfold Step.start Step.logged
  rw [bind_assoc]
  refine (sparesLog_lift _).bind fun outcome _ => ?_
  rw [pure_bind]
  cases outcome with
  | returned result => exact .pure ⟨.finished result, rfl⟩
  | routine start => exact (sparesLog_lift start).bind fun started _ => .pure ⟨started, rfl⟩

/-! ## The log holds the lines -/

/-- The watched state of a step beside a log, and the state of the step: the log holds the lines
    among the moments. -/
private def Gathers (s : Watched (Logged σ) ε α) (logged : Logged σ) : Prop :=
  s.own = logged ∧ logged.lines = linesOf s.seen

/-- To record a moment that is no line keeps the lines of the log those among the moments. -/
private theorem SparesLog.gathers {P : β → Prop} {m : EStateM ε (Logged σ) β} (h : SparesLog P m)
    {moment : Except ε β → Moment ε α} (hmoment : ∀ ended, (moment ended).line? = none) :
    Agree Gathers (fun b b' => b = b' ∧ P b') (Watched.lift m moment) m := by
  have hlines : ∀ ended (seen : List (Moment ε α)),
      linesOf (seen ++ [moment ended]) = linesOf seen := by
    intro ended seen
    have hnone : linesOf [moment ended] = [] := List.filterMap_cons_none (hmoment ended)
    rw [linesOf_append, hnone, List.append_nil]
  intro s logged ⟨hown, hsame⟩
  rw [← hown] at hsame ⊢
  have hpart := h s.own
  cases hr : m s.own with
  | ok b t =>
    rw [hr] at hpart
    rw [Watched.lift_ok hr]
    exact ⟨⟨rfl, hpart.1⟩, rfl, hpart.2.trans (hsame.trans (hlines _ _).symm)⟩
  | error e t =>
    rw [hr] at hpart
    rw [Watched.lift_error hr]
    exact ⟨rfl, rfl, hpart.trans (hsame.trans (hlines _ _).symm)⟩

/-- A resumed step may be left to be closed, which does not touch the log either. -/
private theorem resumed_gathers (node : Value) (resumed : Resumed σ ε α) :
    Resumed.Agree (.same Gathers) (resumed.logged.watched node) resumed.logged := by
  cases resumed with
  | finished result => exact .finished result
  | suspended close =>
    refine .suspended fun context context' hcontext => ?_
    obtain rfl : context = context' := hcontext
    let closed : Except ε Unit → Moment ε α := fun ended =>
      .closed node context.path (failure? ended)
    have hclose : Agree Gathers (fun b b' => b = b' ∧ True)
        (Watched.lift (Logged.lift (close context)) closed) (Logged.lift (close context)) :=
      (sparesLog_lift _).gathers fun _ => rfl
    have hsame := hclose.map_left (f := id) (W := Eq) fun _ _ hb => hb.1
    simp only [id_eq, bind_pure] at hsame
    exact hsame

/-- A started step may be left to be resumed, which does not touch the log either. -/
private theorem started_gathers (node : Value) (started : Started σ ε α) :
    Started.Agree (.same Gathers) (started.logged.watched node) started.logged := by
  cases started with
  | finished result => exact .finished result
  | suspended yielded resume =>
    refine .suspended yielded fun children context context' hcontext => ?_
    obtain rfl : context = context' := hcontext
    have hspares : SparesLog (fun resumed => ∃ inner : Resumed σ ε α, resumed = inner.logged)
        (Logged.lift (resume children context) >>= fun resumed => pure resumed.logged) :=
      (sparesLog_lift _).bind fun resumed _ => .pure ⟨resumed, rfl⟩
    refine (hspares.gathers fun _ => rfl).map_left ?_
    rintro resumed _ ⟨rfl, inner, rfl⟩
    exact resumed_gathers node inner

/-- The appending logger appends the lines of a message. -/
private theorem log_appending (v : VerbositySetting) (severity : Severity) (message : String)
    (s : Logged σ) :
    (Logger.appending v).log severity message s =
      { s with lines := s.lines ++ v.lines severity message } := by
  unfold Logger.log
  show List.foldl _ s (v.lines severity message) = _
  generalize v.lines severity message = lines
  -- The induction is on the lines; the log varies with them.
  induction lines generalizing s with
  | nil => rw [List.append_nil, List.foldl_nil]
  | cons line rest ih =>
    rw [List.foldl_cons, ih]
    simp [Logger.appending]

/-- The step that records its moments keeps the lines of the log those among the moments. -/
private theorem step_gathers (step : Step σ ε α) :
    Step.Agree (.same Gathers) step.logged.watched step.logged := by
  intro node node' acc context context' hnode hcontext
  obtain rfl : node = node' := hnode
  obtain rfl : context = context' := hcontext
  rw [Step.start_watched]
  refine ((sparesLog_start step node acc context).gathers fun _ => rfl).map_left ?_
  rintro started _ ⟨rfl, inner, rfl⟩
  exact started_gathers node inner

/-- The walk that records its moments does what the walk does, and logs the lines among them. -/
private theorem walker_gathers (root : Value) (step : Step σ ε α) (adapter : Option Adapter)
    (verbosity : Option VerbositySetting) :
    Walker.Agree (.same Gathers)
      (traverseWalker root step.logged.watched adapter
        ((verbosity.map Logger.appending).map Logger.watched))
      (traverseWalker root step.logged adapter (verbosity.map Logger.appending)) where
  lawful := Likeness.lawful_same Gathers _
  step := step_gathers step
  log := by
    intro severity message s s' hs
    -- Only here the two get longer, and they do so by the same lines.
    cases verbosity with
    | none => exact ⟨rfl, hs⟩
    | some v =>
      obtain ⟨path, ⟨logged, seen⟩⟩ := s
      obtain ⟨path', logged'⟩ := s'
      obtain ⟨hpath, heq, hlines⟩ := hs
      obtain rfl : logged = logged' := heq
      have hlines : logged.lines = linesOf seen := hlines
      refine ⟨rfl, hpath, ?_⟩
      show Gathers ((Logger.watched (.appending v)).log severity message ⟨logged, seen⟩)
        ((Logger.appending v).log severity message logged)
      rw [Logger.log_watched, log_appending]
      refine ⟨rfl, ?_⟩
      show logged.lines ++ _ = linesOf (seen ++ (v.lines severity message).map .logged)
      rw [linesOf_append, linesOf_map_logged, hlines]

/-! ## Whole walks -/

/-- The lines that a walk gathers are those logged in it. -/
theorem lines_traverseLogged (root : Value) (step : Step σ ε α) (init : Option α) (own : σ)
    (adapter : Option Adapter) (verbosity : Option VerbositySetting) :
    (traverseLogged root step init own adapter verbosity).own.lines =
      linesOf (history root step.logged init { own } adapter (verbosity.map Logger.appending)) := by
  have hstart : Gathers ({ own := { own } } : Watched (Logged σ) ε α) { own } := ⟨rfl, rfl⟩
  have h := traverse_agree init (walker_gathers root step adapter verbosity) rfl hstart
    (.refl (fun _ => rfl) _)
  exact h.own.2

/-- Below the verbose level, a walk that does not fail logs nothing. -/
theorem lines_traverseLogged_of_ok {root : Value} {step : Step σ ε α} {init : Option α} {own : σ}
    {adapter : Option Adapter} {v : VerbositySetting} (hv : v.isVerbose = false)
    {result : Option α}
    (hok : (traverseLogged root step init own adapter (some v)).outcome = .ok result) :
    (traverseLogged root step init own adapter (some v)).own.lines = [] := by
  have hannounced := (visit_history root step.logged init { own } adapter
    (some (.appending v))).1.announced
  have houtcome : (traverse root step.logged init { own } adapter
      (some (.appending v))).outcome = .ok result := hok
  -- Below the verbose level a walk that ends normally consists of the doings of the step.
  have hmoments := hannounced.of_not_verbose (by simpa [Logger.appending] using hv)
  rw [houtcome] at hmoments
  rw [lines_traverseLogged]
  show linesOf (history root step.logged init { own } adapter (some (.appending v))) = []
  rw [hmoments, linesOf_append, linesOf_stepsOf, List.nil_append]
  rfl

end TreeWalk
