import TreeWalk.Proofs.Run
import TreeWalk.Proofs.Watching

/-! # Courses of pure steps

A step without state that does not look at its context does the same wherever it is called.
What a visit by such a step does can be told from the tree below the node and the accumulator
alone: it is the course of the visit, in which every path is given from the node on.  To hang
the node somewhere below a root is to put the way there in front of these paths.

## Key results

* `course` is the course of a visit, `Course.shift` puts a path in front.
* `Walker.visit_course` says that the visit of a node at any path goes as its course says.
* `history_eq_course` says so of whole walks.
-/

namespace TreeWalk

variable {σ ε α β β' γ γ' : Type}

/-- A step that does not look at its context does the same in any context. -/
def Step.IgnoresContext (step : Step σ ε α) : Prop :=
  Step.Agree ⟨Eq, fun _ _ => True, Eq⟩ step step

/-! ## Courses -/

/-- Why a course breaks off; a breach happens at a node with a path. -/
inductive Mishap (ε : Type) where
  | step (error : ε)
  | breach (what : Breach) (node : Value) (path : List PathEntry)
  | noFields (typeName : String)

/-- The failure of a walk that a mishap amounts to. -/
def Mishap.failure (a : Adapter) : Mishap ε → Failure ε
  | .step error => .step error
  | .breach what node path => .breach what (a.placeOf path node)
  | .noFields typeName => .noFields typeName

/-- The mishap below a node to which the path `above` leads. -/
def Mishap.shift (above : List PathEntry) : Mishap ε → Mishap ε
  | .step error => .step error
  | .breach what node path => .breach what node (above ++ path)
  | .noFields typeName => .noFields typeName

/-- The moment below a node to which the path `above` leads. -/
def Moment.shift (above : List PathEntry) : Moment ε α → Moment ε α
  | .logged line => .logged line
  | .called node path acc answer => .called node (above ++ path) acc answer
  | .resumed node path children reply => .resumed node (above ++ path) children reply
  | .closed node path failure => .closed node (above ++ path) failure

/-- Moving a mishap up by nothing leaves it where it is. -/
@[simp] theorem Mishap.shift_nil (mishap : Mishap ε) : mishap.shift [] = mishap := by
  cases mishap <;> rfl

/-- Moving a moment up by nothing leaves it where it is. -/
@[simp] theorem Moment.shift_nil (m : Moment ε α) : m.shift [] = m := by
  cases m <;> rfl

/-- Moving a mishap up twice is moving it up by both paths. -/
theorem Mishap.shift_shift (above below : List PathEntry) (mishap : Mishap ε) :
    (mishap.shift below).shift above = mishap.shift (above ++ below) := by
  cases mishap with
  | breach what node path => exact congrArg (breach what node) (List.append_assoc ..).symm
  | step error => rfl
  | noFields typeName => rfl

/-- Moving a moment up twice is moving it up by both paths. -/
theorem Moment.shift_shift (above below : List PathEntry) (m : Moment ε α) :
    (m.shift below).shift above = m.shift (above ++ below) := by
  cases m <;> simp only [shift, List.append_assoc]

/-- Some moments, and the result or the mishap at their end. -/
structure Course (ε α β : Type) where
  moments : List (Moment ε α)
  fin : Except (Mishap ε) β

namespace Course

/-- Nothing happens. -/
def done (result : β) : Course ε α β :=
  ⟨[], .ok result⟩

/-- The course breaks off at once. -/
def broken (mishap : Mishap ε) : Course ε α β :=
  ⟨[], .error mishap⟩

/-- Goes on with what follows from the result, unless the course breaks off. -/
def andThen (c : Course ε α β) (next : β → Course ε α γ) : Course ε α γ :=
  match c.fin with
  | .ok result => ⟨c.moments ++ (next result).moments, (next result).fin⟩
  | .error mishap => ⟨c.moments, .error mishap⟩

/-- The course below a node to which the path `above` leads. -/
def shift (above : List PathEntry) (c : Course ε α β) : Course ε α β :=
  ⟨c.moments.map (Moment.shift above), c.fin.mapError (Mishap.shift above)⟩

/-- A part of a step makes one moment; if it fails, the course breaks off. -/
def ofPart (part : EStateM ε Unit β) (moment : Except ε β → Moment ε α) : Course ε α β :=
  match part () with
  | .ok result _ => ⟨[moment (.ok result)], .ok result⟩
  | .error error _ => ⟨[moment (.error error)], .error (.step error)⟩

end Course

/-! ## The course of a visit -/

section

variable (step : Step Unit ε α)

/-- The call of a node. -/
def calling (node : Value) (acc : Option α) : Course ε α (Started Unit ε α) :=
  .ofPart (step.start node acc {}) fun ended => .called node [] acc (.ofStart ended)

/-- The second phase of a step at a node. -/
def resuming (node : Value)
    (resume : Children α → Context → EStateM ε Unit (Resumed Unit ε α)) (children : Children α) :
    Course ε α (Option α) :=
  (Course.ofPart (resume children {}) fun ended =>
    .resumed node [] children (.ofResumption ended)).andThen fun
  | .finished (some result) => .done (some result)
  | .finished none => .broken (.breach .missingResult node [])
  | .suspended close =>
    (Course.ofPart (close {}) fun ended => .closed node [] (failure? ended)).andThen fun _ =>
      .broken (.breach .suspendedTwice node [])

mutual

/-- The course of the visit of a node. -/
def course : Tree → Option α → Course ε α (Option α)
  | .node value _ children, acc => (calling step value acc).andThen fun
    | .finished result =>
      (courseAll value children (result <|> acc)).andThen fun _ => .done result
    | .suspended yielded resume =>
      (courseAll value children (yielded <|> acc)).andThen fun visits =>
        resuming value resume (Children.ofVisits visits)
  | .sealed value, acc =>
    (calling step value acc).andThen fun _ => .broken (.noFields value.typeName)

/-- The course of the visits of children of `parent`. -/
def courseAll (parent : Value) : List (Slot × Tree) → Option α →
    Course ε α (List (Slot × Option α))
  | [], _ => .done []
  | (slot, tree) :: rest, acc =>
    ((course tree acc).shift [slot.entry parent]).andThen fun result =>
      (courseAll parent rest acc).andThen fun results => .done ((slot, result) :: results)

end

end

/-! ## Walks follow the course -/

/-- The end of a walk at `path` and that of a course are alike: results related by `V`, or
    the failure that the mishap at the path amounts to. -/
def EndsAs (V : β → β' → Prop) (a : Adapter) (path : List PathEntry) :
    Except (Failure ε) β → Except (Mishap ε) β' → Prop
  | .ok result, .ok result' => V result result'
  | .error failure, .error mishap => failure = (mishap.shift path).failure a
  | _, _ => False

/-- Moments added at `path` and an end go as a course says. -/
def Follows (V : β → β' → Prop) (a : Adapter) (path : List PathEntry) (c : Course ε α β')
    (added : List (Moment ε α)) (fin : Except (Failure ε) β) : Prop :=
  added = c.moments.map (Moment.shift path) ∧ EndsAs V a path fin c.fin

namespace Follows

variable {a : Adapter} {path : List PathEntry} {V : β → β' → Prop} {W : γ → γ' → Prop}

/-- A result without a moment follows the course that is done. -/
theorem done {result : β} {result' : β'} (h : V result result') :
    Records path (pure result : Walk (Watched σ ε α) ε β) (Follows V a path (.done result')) :=
  .pure ⟨rfl, h⟩

/-- What follows a result goes on from there, in the walk and in the course. -/
theorem andThen {m : Walk (Watched σ ε α) ε β} {f : β → Walk (Watched σ ε α) ε γ}
    {c : Course ε α β'} {next : β' → Course ε α γ'} (hm : Records path m (Follows V a path c))
    (hf : ∀ b b', V b b' → Records path (f b) (Follows W a path (next b'))) :
    Records path (m >>= f) (Follows W a path (c.andThen next)) := by
  obtain ⟨moments, fin'⟩ := c
  refine hm.bind ?_ ?_
  · -- The first part has ended well in both or in neither.
    intro added b ⟨hadded, hend⟩
    cases fin' with
    | error mishap => exact hend.elim
    | ok b' =>
      refine (hf b b' hend).mono ?_
      intro more fin ⟨hmore, hend'⟩
      refine ⟨?_, hend'⟩
      rw [hadded, hmore]
      exact List.map_append.symm
  · intro added failure ⟨hadded, hend⟩
    cases fin' with
    | error mishap => exact ⟨hadded, hend⟩
    | ok b' => exact hend.elim

/-- A course that breaks off ends the walk. -/
theorem broken {mishap : Mishap ε} {failure : Failure ε}
    (h : failure = (mishap.shift path).failure a) :
    Records path (throw failure : Walk (Watched σ ε α) ε β) (Follows V a path (.broken mishap)) :=
  .throw ⟨rfl, h⟩

/-- One level down the course is that below one more path entry. -/
theorem descend {entry : PathEntry} {m : Walk (Watched σ ε α) ε β} {c : Course ε α β'}
    (hm : Records (path ++ [entry]) m (Follows V a (path ++ [entry]) c)) :
    Records path (Walk.descend entry m) (Follows V a path (c.shift [entry])) := by
  refine (Records.descend hm).mono ?_
  intro added fin ⟨hadded, hend⟩
  refine ⟨?_, ?_⟩
  · -- The moments move up by the entry first and then by the path.
    rw [hadded, Course.shift, List.map_map]
    exact List.map_congr_left fun m _ => (Moment.shift_shift path [entry] m).symm
  · obtain ⟨moments, fin'⟩ := c
    cases fin with
    | ok b =>
      cases fin' with
      | ok b' => exact hend
      | error mishap => exact hend
    | error failure =>
      cases fin' with
      | ok b' => exact hend
      | error mishap =>
        have hfailure : failure = (mishap.shift (path ++ [entry])).failure a := hend
        rw [← Mishap.shift_shift] at hfailure
        exact hfailure

/-- A part of a step that does not look at its context makes the moment that it makes in the
    course; its result may be changed by `g` before it is used. -/
theorem part {p : EStateM ε Unit β} {p' : EStateM ε Unit β'} (h : Agree Eq V p p')
    {moment : Except ε β → Moment ε α} {moment' : Except ε β' → Moment ε α}
    (hok : ∀ b b', V b b' → moment (.ok b) = (moment' (.ok b')).shift path)
    (herror : ∀ e, moment (.error e) = (moment' (.error e)).shift path) {g : β → γ}
    {W : γ → β' → Prop} (hg : ∀ b b', V b b' → W (g b) b') :
    Records path (Walk.ofStep (Watched.lift p moment >>= fun b => pure (g b)))
      (Follows W a path (.ofPart p' moment')) := by
  intro own seen
  have hparts := h () () rfl
  show ∃ own' added fin, Walk.ofStep (EStateM.bind (Watched.lift p moment) _) _ = _ ∧ _
  unfold Walk.ofStep EStateM.bind
  -- The step ends in the same way with the context and without one.
  cases hr : p () with
  | ok b t =>
    cases hr' : p' () with
    | error e t' => simp [hr, hr'] at hparts
    | ok b' t' =>
      rw [hr, hr'] at hparts
      have hlift : Watched.lift p moment ⟨own, seen⟩ = _ := Watched.lift_ok hr
      refine ⟨(), [moment (.ok b)], .ok (g b), ?_, ?_⟩
      · simp only [hlift]
        rfl
      · simp only [Course.ofPart, hr']
        exact ⟨congrArg (fun m => [m]) (hok b b' hparts.1), hg b b' hparts.1⟩
  | error e t =>
    cases hr' : p' () with
    | ok b' t' => simp [hr, hr'] at hparts
    | error e' t' =>
      rw [hr, hr'] at hparts
      obtain ⟨rfl, -⟩ := hparts
      have hlift : Watched.lift p moment ⟨own, seen⟩ = _ := Watched.lift_error hr
      refine ⟨(), [moment (.error e)], .error (.step e), ?_, ?_⟩
      · simp only [hlift]
        rfl
      · simp only [Course.ofPart, hr']
        exact ⟨congrArg (fun m => [m]) (herror e), rfl⟩

end Follows

/-- Steps agree with themselves in all contexts. -/
private abbrev anyContext : Likeness Unit Unit := ⟨Eq, fun _ _ => True, Eq⟩

namespace Walker

/-- A walker without a logger. -/
private abbrev plain (step : Step Unit ε α) (a : Adapter) : Walker Unit ε α :=
  { step, adapter := a }

section

variable {step : Step Unit ε α} (a : Adapter) (path : List PathEntry)

/-- Without a logger nothing is logged. -/
private theorem logEntry_plain (step : Step Unit ε α) (kind : Option String) :
    Records path ((plain step a).watched.logEntry kind) fun added fin =>
      added = [] ∧ fin = .ok () := by
  unfold logEntry
  refine (plain step a).context_records.bind_known ?_
  exact (plain step a).log_records .debug _

/-- A breach breaks off the walk and the course. -/
private theorem fail_plain (step : Step Unit ε α) {V : β → β' → Prop} (what : Breach)
    (node : Value) :
    Records path ((plain step a).watched.fail (β := β) what (a.kindOf node))
      (Follows V a path (.broken (.breach what node []))) := by
  refine ((plain step a).fail_records what node).mono ?_
  intro added fin ⟨hadded, hfin⟩
  refine ⟨hadded, ?_⟩
  rw [hfin]
  show Failure.breach what (a.placeOf path node) = .breach what (a.placeOf (path ++ []) node)
  rw [List.append_nil]

/-- The call of a node goes as in the course. -/
private theorem call_course (hstep : step.IgnoresContext) (node : Value) (acc : Option α) :
    Records path ((plain step a).watched.call node acc)
      (Follows (fun started started' => ∃ unwatched : Started Unit ε α,
        started = unwatched.watched node ∧ Started.Agree anyContext unwatched started')
        a path (calling step node acc)) := by
  rw [call_eq]
  refine (plain step a).context_records.bind_known ?_
  have hstart := hstep node node acc { path, adapter := some a } {} rfl trivial
  -- The call is recorded at the path, which is added in front of the empty one.
  refine Follows.part hstart ?_ ?_ ?_
  · intro started started' hagree
    show Moment.called node path acc _ = .called node (path ++ []) acc _
    rw [hagree.answer_eq, List.append_nil]
  · intro e
    show Moment.called node path acc _ = .called node (path ++ []) acc _
    rw [List.append_nil, Answer.ofStart]
  · intro started started' hagree
    exact ⟨started, rfl, hagree⟩

/-- A step that is resumed goes on as in the course. -/
private theorem resume_course (node : Value)
    {resume resume' : Children α → Context → EStateM ε Unit (Resumed Unit ε α)}
    (step : Step Unit ε α) (h : ∀ children context context', TreeWalk.Agree Eq
      (Resumed.Agree anyContext) (resume children context) (resume' children context'))
    (children : Children α) :
    Records path ((plain step a).watched.resume (a.kindOf node)
        (fun children context =>
          Watched.lift (resume children context) (fun fin =>
            .resumed node context.path children (.ofResumption fin)) >>= fun resumed =>
              pure (resumed.watched node)) children)
      (Follows Eq a path (resuming node resume' children)) := by
  unfold Walker.resume
  refine (plain step a).context_records.bind_known ?_
  refine Follows.andThen (V := fun resumed resumed' => ∃ unwatched : Resumed Unit ε α,
    resumed = unwatched.watched node ∧ Resumed.Agree anyContext unwatched resumed') ?_ ?_
  · refine Follows.part (h children _ {}) ?_ ?_ fun resumed _ hagree => ⟨resumed, rfl, hagree⟩
    · intro resumed resumed' hagree
      show Moment.resumed node path children _ = .resumed node (path ++ []) children _
      rw [hagree.reply_eq, List.append_nil]
    · intro e
      show Moment.resumed node path children _ = .resumed node (path ++ []) children _
      rw [List.append_nil, Reply.ofResumption]
  · intro resumed resumed' ⟨unwatched, hwatched, hagree⟩
    subst hwatched
    cases hagree with
    | finished result =>
      cases result with
      | some result => exact Follows.done rfl
      | none => exact fail_plain a path step .missingResult node
    | @suspended close close' hclose =>
      refine Follows.andThen (V := Eq) ?_ fun _ _ _ => fail_plain a path step .suspendedTwice node
      -- Closing gives no result of its own, so there is nothing to change in it.
      show Records path (Walk.ofStep (Watched.lift (close _) _)) _
      rw [← bind_pure (Watched.lift (close _) _)]
      refine Follows.part (hclose _ {} trivial) ?_ ?_ fun _ _ _ => rfl
      · intro _ _ _
        show Moment.closed node path none = .closed node (path ++ []) none
        rw [List.append_nil]
      · intro e
        show Moment.closed node path (some e) = .closed node (path ++ []) (some e)
        rw [List.append_nil]

mutual

/-- The visit of a node, through the tree that the adapter shows below it, goes as its course
    says. -/
theorem visit_course (hstep : step.IgnoresContext) : ∀ (tree : Tree) (node : Value),
    a.view node = tree → ∀ (path : List PathEntry) (acc : Option α),
      Records path ((plain step a).watched.visit tree acc)
        (Follows Eq a path (course step tree acc))
  | .sealed value, node, hview, path, acc => by
    unfold visit course
    refine (logEntry_plain a path step none).bind_known ?_
    refine Follows.andThen (call_course a path hstep value acc) ?_
    intro _ _ _
    exact Follows.broken rfl
  | .node value kind trees, node, hview, path, acc => by
    obtain ⟨rfl, rfl, children, hchildren, htrees⟩ := Adapter.of_view_eq_node hview
    unfold visit course
    refine (logEntry_plain a path step _).bind_known ?_
    refine Follows.andThen (call_course a path hstep value acc) ?_
    intro started started' ⟨unwatched, hwatched, hagree⟩
    subst hwatched
    -- A finished step is over when its children have been visited; a suspended one is resumed then.
    cases hagree with
    | finished result =>
      refine Follows.andThen (visitAll_course hstep value trees children htrees path _) ?_
      intro _ _ _
      exact Follows.done rfl
    | suspended yielded hresume =>
      refine Follows.andThen (visitAll_course hstep value trees children htrees path _) ?_
      intro visits visits' hvisits
      subst hvisits
      exact resume_course a path value step (fun children c c' => hresume children c c' trivial) _

/-- Visiting children follows their courses, each moved below its slot. -/
theorem visitAll_course (hstep : step.IgnoresContext) (parent : Value) :
    ∀ (trees : List (Slot × Tree))
    (children : List (Slot × Value)),
    children.map (fun child => (child.1, a.view child.2)) = trees →
    ∀ (path : List PathEntry) (acc : Option α),
      Records path ((plain step a).watched.visitAll parent trees acc)
        (Follows Eq a path (courseAll step parent trees acc))
  | [], children, hview, path, acc => by
    unfold visitAll courseAll
    exact Follows.done rfl
  | (slot, tree) :: trees, children, hview, path, acc => by
    obtain ⟨⟨place, child⟩, rest, rfl, hhead, hrest⟩ := List.map_eq_cons_iff.mp hview
    obtain ⟨rfl, hchild⟩ := Prod.mk.inj hhead
    unfold visitAll courseAll
    refine Follows.andThen (Follows.descend (visit_course hstep tree child hchild _ acc)) ?_
    intro result result' hresult
    subst hresult
    refine Follows.andThen (visitAll_course hstep parent trees rest hrest path acc) ?_
    intro results results' hresults
    subst hresults
    exact Follows.done rfl

end

end

end Walker

/-- The history of a walk by a step that does not look at its context is the course of the
    visit of the root. -/
theorem history_eq_course {step : Step Unit ε α} (hstep : step.IgnoresContext) (root : Value)
    (init : Option α) (adapter : Option Adapter) :
    let a := adapter.getD (.default root)
    history root step init () adapter none = (course step (a.view root) init).moments ∧
      (traverse root step init () adapter none).outcome =
        (course step (a.view root) init).fin.mapError (Mishap.failure a) := by
  intro a
  obtain ⟨houtcome, -, -⟩ := traverse_watched root step init () adapter none
  obtain ⟨own, added, fin, hrun, hadded, hend⟩ :=
    Walker.visit_course a hstep (a.view root) root rfl [] init () []
  have hended : traverseWatched root step init () adapter none =
      .ofVisit (ended fin ⟨[], ⟨own, added⟩⟩) := by
    rw [traverseWatched, traverse_eq]
    exact congrArg Ending.ofVisit hrun
  rw [← houtcome, history, hended]
  -- To put the empty path in front changes nothing.
  rw [List.map_congr_left fun m _ => Moment.shift_nil m, List.map_id'] at hadded
  cases hfin : (course step (a.view root) init).fin with
  | ok result =>
    rw [hfin] at hend
    cases fin with
    | ok result' => exact ⟨hadded, congrArg Except.ok hend⟩
    | error failure => exact hend.elim
  | error mishap =>
    rw [hfin] at hend
    cases fin with
    | ok result' => exact hend.elim
    | error failure =>
      have hfailure : failure = (mishap.shift []).failure a := hend
      rw [Mishap.shift_nil] at hfailure
      exact ⟨hadded, congrArg Except.error hfailure⟩

end TreeWalk
