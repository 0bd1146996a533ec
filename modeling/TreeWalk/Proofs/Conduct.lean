import TreeWalk.Proofs.Run

/-! # The conduct of a step

The rules of a walk say when a step is called, resumed and closed, but not what it answers.  The
step itself says that: `Step.Conduct` holds of a step if `P` holds of every moment that it can
bring about, whatever it is handed and whatever its own state is.  Nothing else happens in a walk,
so `P` then holds of the whole history.

## Key results

* `Step.Conduct` and its two companions follow a step through its phases.
* `Step.Conduct.watched` keeps `P` of all that has been seen while the step is watched.
* `Step.Conduct.history` says so of whole walks.
-/

namespace TreeWalk

variable {σ ε α β : Type}

/-- How a part of a step ends, without the state that it leaves behind. -/
def endOf : EStateM.Result ε σ β → Except ε β
  | .ok result _ => .ok result
  | .error error _ => .error error

/-! ## Phase by phase -/

section

variable (a : Adapter) (P : Moment ε α → Prop)

/-- Whether `P` holds of the moment at which a step that suspended again is closed. -/
def Resumed.Conduct (node : Value) : Resumed σ ε α → Prop
  | .finished _ => True
  | .suspended close => ∀ path s,
    P (.closed node path (failure? (endOf (close { path, adapter := some a } s))))

/-- Whether `P` holds of the moments that follow when a step has been started. -/
def Started.Conduct (node : Value) : Started σ ε α → Prop
  | .finished _ => True
  | .suspended _ resume => ∀ children path s,
    let ended := endOf (resume children { path, adapter := some a } s)
    P (.resumed node path children (.ofResumption ended)) ∧
      ∀ resumed, ended = .ok resumed → resumed.Conduct a P node

/-- Whether `P` holds of all moments that a step can bring about in a walk with the adapter
    `a`. -/
def Step.Conduct (step : Step σ ε α) : Prop :=
  ∀ node acc path s,
    let ended := endOf (step.start node acc { path, adapter := some a } s)
    P (.called node path acc (.ofStart ended)) ∧
      ∀ started, ended = .ok started → started.Conduct a P node

/-- What is alike in two walks that are the same: `P` holds of all that has been seen in them so
    far, and their contexts are those of the adapter `a`. -/
def Likeness.inOrder : Likeness (Watched σ ε α) (Watched σ ε α) where
  state s s' := s = s' ∧ ∀ m ∈ s.seen, P m
  context context context' := context = context' ∧ context.adapter = some a
  node := Eq

end

/-! ## Watched steps -/

section

variable {a : Adapter} {P : Moment ε α → Prop}

/-- Watching a part of a step adds the one moment that its end amounts to. -/
private theorem lift_inOrder {m : EStateM ε σ β} {moment : Except ε β → Moment ε α}
    {V : β → β → Prop} (hmoment : ∀ s, P (moment (endOf (m s))))
    (hresult : ∀ s result, endOf (m s) = .ok result → V result result) :
    Agree (Likeness.inOrder a P).state V (Watched.lift m moment) (Watched.lift m moment) := by
  rintro s _ ⟨rfl, hseen⟩
  -- Both sides do the same, so it is enough that the moment added has the property.
  have hnow := hmoment s.own
  cases hrun : m s.own with
  | ok result own =>
    rw [Watched.lift_ok hrun]
    rw [hrun, endOf] at hnow
    have hresult' := hresult s.own result (by rw [hrun, endOf])
    exact ⟨hresult', rfl, List.forall_mem_append.mpr ⟨hseen, List.forall_mem_singleton.mpr hnow⟩⟩
  | error error own =>
    rw [Watched.lift_error hrun]
    rw [hrun, endOf] at hnow
    exact ⟨rfl, rfl, List.forall_mem_append.mpr ⟨hseen, List.forall_mem_singleton.mpr hnow⟩⟩

/-- A context of a walk is told by its path. -/
private theorem Likeness.inOrder_context {context context' : Context}
    (h : (Likeness.inOrder a P : Likeness (Watched σ ε α) _).context context context') :
    ∃ path, context = { path, adapter := some a } ∧ context' = { path, adapter := some a } := by
  obtain ⟨rfl, hadapter⟩ := h
  refine ⟨context.path, ?_, ?_⟩ <;> rw [← hadapter]

/-- A step that keeps a property of its moments is like itself, where what is alike has the
    property. -/
private theorem Resumed.Conduct.watched {node : Value} {resumed : Resumed σ ε α}
    (h : resumed.Conduct a P node) :
    Resumed.Agree (Likeness.inOrder a P) (resumed.watched node) (resumed.watched node) := by
  cases resumed with
  | finished result => exact .finished result
  | suspended close =>
    refine .suspended fun context context' hcontext => ?_
    obtain ⟨path, rfl, rfl⟩ := Likeness.inOrder_context hcontext
    exact lift_inOrder (h path) fun _ _ _ => rfl

/-- The same when it has been called. -/
private theorem Started.Conduct.watched {node : Value} {started : Started σ ε α}
    (h : started.Conduct a P node) :
    Started.Agree (Likeness.inOrder a P) (started.watched node) (started.watched node) := by
  cases started with
  | finished result => exact .finished result
  | suspended yielded resume =>
    refine .suspended yielded fun children context context' hcontext => ?_
    obtain ⟨path, rfl, rfl⟩ := Likeness.inOrder_context hcontext
    -- The resumption is recorded first, and what comes after it is as the conduct says.
    refine Agree.bind (V := fun resumed resumed' =>
      resumed = resumed' ∧ resumed.Conduct a P node) ?_ ?_
    · refine lift_inOrder (fun s => (h children path s).1) ?_
      intro s resumed hended
      exact ⟨rfl, (h children path s).2 resumed hended⟩
    · rintro resumed _ ⟨rfl, hresumed⟩
      exact .pure hresumed.watched

/-- A step whose conduct is in order keeps what has been seen in order while it is watched. -/
theorem Step.Conduct.watched {step : Step σ ε α} (h : step.Conduct a P) :
    Step.Agree (Likeness.inOrder a P) step.watched step.watched := by
  rintro node _ acc context context' rfl hcontext
  obtain ⟨path, rfl, rfl⟩ := Likeness.inOrder_context hcontext
  rw [start_watched]
  refine Agree.bind (V := fun started started' =>
    started = started' ∧ started.Conduct a P node) ?_ ?_
  · refine lift_inOrder (fun s => (h node acc path s).1) ?_
    intro s started hended
    exact ⟨rfl, (h node acc path s).2 started hended⟩
  · rintro started _ ⟨rfl, hstarted⟩
    exact .pure hstarted.watched

/-! ## Walks -/

variable (a P) in
/-- Walks that record alike agree on kinds, fields and places. -/
private theorem Likeness.lawful_inOrder :
    (Likeness.inOrder a P : Likeness (Watched σ ε α) _).Lawful a a where
  describe h := congrArg Context.describe h.1
  push := by
    rintro path path' parent _ slot ⟨hpath, -⟩ rfl
    obtain rfl : path = path' := congrArg Context.path hpath
    exact ⟨rfl, rfl⟩
  pop := by
    rintro path path' ⟨hpath, -⟩
    obtain rfl : path = path' := congrArg Context.path hpath
    exact ⟨rfl, rfl⟩

/-- Lines of the log do no harm to what has been seen. -/
private theorem Step.Conduct.walker_agree {root : Value} {step : Step σ ε α}
    {adapter : Option Adapter} (h : step.Conduct (adapter.getD (.default root)) P)
    (hline : ∀ line, P (.logged line)) (logger : Option (Logger σ)) :
    Walker.Agree (.inOrder (adapter.getD (.default root)) P)
      (traverseWalker root step.watched adapter (logger.map Logger.watched))
      (traverseWalker root step.watched adapter (logger.map Logger.watched)) where
  lawful := Likeness.lawful_inOrder _ P
  step := h.watched
  log := by
    rintro severity message ⟨path, own⟩ ⟨path', own'⟩ ⟨hpath, hown, hseen⟩
    obtain rfl : own = own' := hown
    cases logger with
    | none => exact ⟨rfl, hpath, rfl, hseen⟩
    | some logger =>
      refine ⟨rfl, hpath, rfl, ?_⟩
      show ∀ m ∈ ((Logger.watched logger).log severity message own).seen, P m
      -- The lines of the logger are moments too.
      rw [Logger.log_watched]
      refine List.forall_mem_append.mpr ⟨hseen, ?_⟩
      intro m hm
      obtain ⟨line, -, rfl⟩ := List.mem_map.mp hm
      exact hline line

/-- What holds of every line of the log and of all moments that a step can bring about holds of
    everything that happens in a walk. -/
theorem Step.Conduct.history {root : Value} {step : Step σ ε α} {adapter : Option Adapter}
    (h : step.Conduct (adapter.getD (.default root)) P) (hline : ∀ line, P (.logged line))
    (init : Option α) (own : σ) (logger : Option (Logger σ)) :
    ∀ m ∈ TreeWalk.history root step init own adapter logger, P m := by
  have hstart : (Likeness.inOrder (adapter.getD (.default root)) P).state
      ({ own } : Watched σ ε α) { own } :=
    ⟨rfl, fun m hm => absurd hm List.not_mem_nil⟩
  have hwalk := traverse_agree init (h.walker_agree hline logger) ⟨rfl, rfl⟩ hstart
    (.refl (fun _ => rfl) _)
  exact hwalk.own.2

end

end TreeWalk
