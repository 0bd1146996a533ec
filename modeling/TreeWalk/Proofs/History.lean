import TreeWalk.Proofs.Simulation

/-! # The history of a walk

What a walk does to its step can be seen by running it with a step that is
watched: it does what the step does, and beside the step's own state it keeps a
list of the moments at which the step was called, resumed or closed, each with the
path it was handed and with what it answered.  A watched logger puts its lines
into the same list.

## Key results

* `history` is everything that happens in a walk, in order.
* `traverse_watched` says that nothing else about a walk changes when it is watched.
-/

namespace TreeWalk

variable {σ ε α β : Type}

/-- What a step answered when it was called: the failure it raised, the result it
    finished with, or what it handed down when it suspended. -/
inductive Answer (ε α : Type) where
  | failed (error : ε)
  | finished (result : Option α)
  | suspended (yielded : Option α)

/-- The value of the first phase of a step: what it handed down when it suspended,
    or its result if it finished without suspending. -/
def Answer.handed : Answer ε α → Option α
  | .failed _ => none
  | .finished result => result
  | .suspended yielded => yielded

/-- What a suspended step answered when it was resumed; to suspend again is a
    breach. -/
inductive Reply (ε α : Type) where
  | failed (error : ε)
  | finished (result : Option α)
  | suspended

/-- Something that happens in a walk: a line is logged, or the step is called,
    resumed or closed at a node with the given path. -/
inductive Moment (ε α : Type) where
  | logged (line : String)
  | called (node : Value) (path : List PathEntry) (acc : Option α) (answer : Answer ε α)
  | resumed (node : Value) (path : List PathEntry) (children : Children α) (reply : Reply ε α)
  | closed (node : Value) (path : List PathEntry) (failure : Option ε)

/-- The path and the node of a moment of the step. -/
def Moment.position? : Moment ε α → Option (List PathEntry × Value)
  | .logged _ => none
  | .called node path _ _ | .resumed node path _ _ | .closed node path _ => some (path, node)

/-- The state of a step and what has happened so far. -/
structure Watched (σ ε α : Type) where
  own : σ
  seen : List (Moment ε α) := []

/-- Runs a computation that knows nothing of the moments, and adds the one that
    its end amounts to. -/
def Watched.lift (m : EStateM ε σ β) (moment : Except ε β → Moment ε α) :
    EStateM ε (Watched σ ε α) β := fun s =>
  match m s.own with
  | .ok result own => .ok result { own, seen := s.seen ++ [moment (.ok result)] }
  | .error error own => .error error { own, seen := s.seen ++ [moment (.error error)] }

/-- A computation that ends normally is recorded with what it returns. -/
theorem Watched.lift_ok {m : EStateM ε σ β} {moment : Except ε β → Moment ε α}
    {s : Watched σ ε α} {b : β} {own : σ} (h : m s.own = .ok b own) :
    Watched.lift m moment s = .ok b { own, seen := s.seen ++ [moment (.ok b)] } := by
  unfold Watched.lift
  rw [h]

/-- A computation that raises is recorded with what it raises. -/
theorem Watched.lift_error {m : EStateM ε σ β} {moment : Except ε β → Moment ε α}
    {s : Watched σ ε α} {e : ε} {own : σ} (h : m s.own = .error e own) :
    Watched.lift m moment s = .error e { own, seen := s.seen ++ [moment (.error e)] } := by
  unfold Watched.lift
  rw [h]

/-- The answer that the start of a step amounts to. -/
def Answer.ofStart : Except ε (Started σ ε α) → Answer ε α
  | .ok (.finished result) => .finished result
  | .ok (.suspended yielded _) => .suspended yielded
  | .error error => .failed error

/-- The reply that a resumption amounts to. -/
def Reply.ofResumption : Except ε (Resumed σ ε α) → Reply ε α
  | .ok (.finished result) => .finished result
  | .ok (.suspended _) => .suspended
  | .error error => .failed error

/-- The failure that an end amounts to, if it is one. -/
def failure? : Except ε β → Option ε
  | .ok _ => none
  | .error error => some error

/-- A resumed step, watched when it is closed. -/
def Resumed.watched (node : Value) : Resumed σ ε α → Resumed (Watched σ ε α) ε α
  | .finished result => .finished result
  | .suspended close => .suspended fun context =>
    Watched.lift (close context) fun ended => .closed node context.path (failure? ended)

/-- A started step, watched from then on. -/
def Started.watched (node : Value) : Started σ ε α → Started (Watched σ ε α) ε α
  | .finished result => .finished result
  | .suspended yielded resume => .suspended yielded fun children context =>
    return (← Watched.lift (resume children context) fun ended =>
      .resumed node context.path children (.ofResumption ended)).watched node

/-- A step, watched in all its phases. -/
def Step.watched (step : Step σ ε α) : Step (Watched σ ε α) ε α := fun node acc context =>
  return .routine do
    return (← Watched.lift (step.start node acc context) fun ended =>
      .called node context.path acc (.ofStart ended)).watched node

/-- A logger whose lines are watched. -/
def Logger.watched (logger : Logger σ) : Logger (Watched σ ε α) where
  verbosity := logger.verbosity
  emit := fun line s => ⟨logger.emit line s.own, s.seen ++ [.logged line]⟩

/-- Walks as `traverse` does, with step and logger watched. -/
def traverseWatched (root : Value) (step : Step σ ε α) (init : Option α) (own : σ)
    (adapter : Option Adapter) (logger : Option (Logger σ)) : Ending (Watched σ ε α) ε α :=
  traverse root step.watched init { own } adapter (logger.map Logger.watched)

/-- Everything that happens in a walk, in order. -/
def history (root : Value) (step : Step σ ε α) (init : Option α) (own : σ)
    (adapter : Option Adapter) (logger : Option (Logger σ)) : List (Moment ε α) :=
  (traverseWatched root step init own adapter logger).own.seen

/-! ## Watching changes nothing -/

/-- A watched state belongs to the state of the step itself. -/
private def Shows (s : Watched σ ε α) (own : σ) : Prop := s.own = own

/-- To record a moment changes nothing of what is done. -/
private theorem lift_agree (m : EStateM ε σ β) (moment : Except ε β → Moment ε α) :
    Agree Shows Eq (Watched.lift m moment) m := by
  intro s own hown
  have hs : s.own = own := hown
  rw [← hs]
  cases hr : m s.own with
  | ok b t =>
    rw [Watched.lift_ok hr]
    exact ⟨rfl, rfl⟩
  | error e t =>
    rw [Watched.lift_error hr]
    exact ⟨rfl, rfl⟩

/-- A resumed step does the same while its closing is recorded. -/
private theorem resumed_agree (node : Value) (resumed : Resumed σ ε α) :
    Resumed.Agree (.same Shows) (resumed.watched node) resumed := by
  cases resumed with
  | finished result => exact .finished result
  | suspended close =>
    refine .suspended fun context context' hcontext => ?_
    obtain rfl : context = context' := hcontext
    exact lift_agree (close context) _

/-- A started step does the same while its resumption is recorded. -/
private theorem started_agree (node : Value) (started : Started σ ε α) :
    Started.Agree (.same Shows) (started.watched node) started := by
  cases started with
  | finished result => exact .finished result
  | suspended yielded resume =>
    refine .suspended yielded fun children context context' hcontext => ?_
    obtain rfl : context = context' := hcontext
    refine (lift_agree (resume children context) _).map_left ?_
    intro resumed resumed' heq
    rw [← heq]
    exact resumed_agree node resumed

/-- A watched step starts as the step does, and is watched from then on. -/
theorem Step.start_watched (step : Step σ ε α) (node : Value) (acc : Option α)
    (context : Context) :
    step.watched.start node acc context =
      Watched.lift (step.start node acc context) (fun ended =>
        .called node context.path acc (.ofStart ended)) >>= fun started =>
          pure (started.watched node) :=
  rfl

/-- A step does the same while its moments are recorded. -/
private theorem step_agree (step : Step σ ε α) :
    Step.Agree (.same Shows) step.watched step := by
  intro node node' acc context context' hnode hcontext
  obtain rfl : node = node' := hnode
  obtain rfl : context = context' := hcontext
  rw [Step.start_watched]
  refine (lift_agree (step.start node acc context) _).map_left ?_
  intro started started' heq
  rw [← heq]
  exact started_agree node started

/-- A watched logger logs as the logger does and puts its lines among the moments. -/
theorem Logger.log_watched (logger : Logger σ) (severity : Severity) (message : String)
    (s : Watched σ ε α) :
    (Logger.watched logger).log severity message s =
      ⟨logger.log severity message s.own,
        s.seen ++ (logger.verbosity.lines severity message).map .logged⟩ := by
  unfold Logger.log
  -- The induction is on the lines; the moments seen so far vary with them.
  show List.foldl _ s (logger.verbosity.lines severity message) = _
  generalize logger.verbosity.lines severity message = lines
  induction lines generalizing s with
  | nil => simp
  | cons line rest ih =>
    rw [List.foldl_cons, ih]
    simp [Logger.watched]

/-- A walk does the same while its moments are recorded. -/
private theorem walker_agree (root : Value) (step : Step σ ε α) (adapter : Option Adapter)
    (logger : Option (Logger σ)) :
    Walker.Agree (.same Shows)
      (traverseWalker root step.watched adapter (logger.map Logger.watched))
      (traverseWalker root step adapter logger) where
  lawful := Likeness.lawful_same Shows _
  step := step_agree step
  log := by
    intro severity message s s' hs
    cases logger with
    | none => exact ⟨rfl, hs⟩
    | some logger =>
      obtain ⟨path, own⟩ := s'
      obtain ⟨hpath, rfl⟩ := hs
      refine ⟨rfl, hpath, ?_⟩
      show ((Logger.watched logger).log severity message s.own).own = _
      rw [Logger.log_watched]

/-- A watched walk ends as the walk does: with the same outcome, path and state of
    the step. -/
theorem traverse_watched (root : Value) (step : Step σ ε α) (init : Option α) (own : σ)
    (adapter : Option Adapter) (logger : Option (Logger σ)) :
    let watched := traverseWatched root step init own adapter logger
    let plain := traverse root step init own adapter logger
    watched.outcome = plain.outcome ∧ watched.path = plain.path ∧
      watched.own.own = plain.own := by
  have hown : Shows ({ own } : Watched σ ε α) own := rfl
  have h := traverse_agree init (walker_agree root step adapter logger) rfl hown
    (.refl (fun _ => rfl) _)
  exact ⟨h.outcome, congrArg Context.path h.path, h.own⟩

/-! ## What holds throughout -/

/-- Whether the step suspended when it was called at a node with the given path. -/
def SuspendedAt (moments : List (Moment ε α)) (path : List PathEntry) (node : Value) : Prop :=
  ∃ acc yielded, .called node path acc (.suspended yielded) ∈ moments

/-- Whether the step was resumed at a node with the given path. -/
def ResumedAt (moments : List (Moment ε α)) (path : List PathEntry) (node : Value) : Prop :=
  ∃ results reply, .resumed node path results reply ∈ moments

/-- Throughout some moments that follow the given past, `P` holds of what has
    happened before a moment and of the moment. -/
def Throughout (P : List (Moment ε α) → Moment ε α → Prop) (past : List (Moment ε α)) :
    List (Moment ε α) → Prop
  | [] => True
  | m :: rest => P past m ∧ Throughout P (past ++ [m]) rest

namespace Throughout

variable {P : List (Moment ε α) → Moment ε α → Prop} {past : List (Moment ε α)}

/-- What holds throughout two parts holds throughout the whole. -/
theorem append {xs ys : List (Moment ε α)} (hxs : Throughout P past xs)
    (hys : Throughout P (past ++ xs) ys) : Throughout P past (xs ++ ys) := by
  induction xs generalizing past with
  | nil => simpa using hys
  | cons m rest ih =>
    obtain ⟨hm, hrest⟩ := hxs
    exact ⟨hm, ih hrest (by simpa using hys)⟩

/-- What holds throughout the whole holds throughout its first part. -/
theorem left {xs ys : List (Moment ε α)} (h : Throughout P past (xs ++ ys)) :
    Throughout P past xs := by
  induction xs generalizing past with
  | nil => trivial
  | cons m rest ih => exact ⟨h.1, ih h.2⟩

/-- What holds throughout may be weakened at every moment. -/
theorem imp {Q : List (Moment ε α) → Moment ε α → Prop} {moments : List (Moment ε α)}
    (h : Throughout P past moments) (hPQ : ∀ past m, P past m → Q past m) :
    Throughout Q past moments := by
  induction moments generalizing past with
  | nil => trivial
  | cons m rest ih => exact ⟨hPQ past m h.1, ih h.2⟩

/-- What holds throughout holds at every moment with what came before it. -/
theorem split {before after : List (Moment ε α)} {m : Moment ε α}
    (h : Throughout P past (before ++ m :: after)) : P (past ++ before) m := by
  induction before generalizing past with
  | nil => simpa using h.1
  | cons first rest ih =>
    have hrest := ih h.2
    rwa [List.append_assoc] at hrest

/-- What holds throughout holds of each moment after those before it. -/
theorem exists_of_mem {moments : List (Moment ε α)} {m : Moment ε α}
    (h : Throughout P past moments) (hm : m ∈ moments) : ∃ before, P before m := by
  obtain ⟨before, after, rfl⟩ := List.append_of_mem hm
  exact ⟨past ++ before, h.split⟩

end Throughout

end TreeWalk
