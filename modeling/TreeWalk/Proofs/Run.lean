import TreeWalk.Proofs.History
import TreeWalk.Proofs.View

/-! # The rules of a walk

The visits of a walk, described by rules instead of by the computation that makes
them.  A rule says which moments a visit is made of and how it ends, in terms of
the visits of the children of the node; it speaks of documents and fields and
leaves out the steps' state.  Whatever a walk does is an instance of these rules,
so a property of all walks is proved by going through the rules once.

## Key results

* `Visit`, `VisitAll` and `Resumption` are the rules.
* `Walker.visit_records` says that a visit follows them and leaves the path as it
  was.
* `visit_history` says so of the history of a whole walk.
* `Invariant.history` turns what every visit keeps into what holds throughout a
  walk.
-/

namespace TreeWalk

variable {σ ε α β γ δ : Type}

/-! ## What is logged -/

/-- The described path of a node, under an adapter. -/
def Adapter.location (a : Adapter) (path : List PathEntry) : String :=
  Context.describe { path, adapter := some a }

/-- The lines that a message gives at a verbosity; without a logger there are none. -/
def loggedLines (verbosity : Option VerbositySetting) (severity : Severity) (message : String) :
    List (Moment ε α) :=
  match verbosity with
  | some v => (v.lines severity message).map .logged
  | none => []

/-- Whoever does not look at lines sees nothing of what is logged. -/
theorem filter_loggedLines {p : Moment ε α → Bool} (hp : ∀ line, p (.logged line) = false)
    (verbosity : Option VerbositySetting) (severity : Severity) (message : String) :
    (loggedLines verbosity severity message).filter p = [] := by
  cases verbosity with
  | none => rfl
  | some v =>
    refine List.filter_eq_nil_iff.mpr ?_
    intro m hm
    obtain ⟨line, -, hline⟩ := List.mem_map.mp hm
    rw [← hline, hp line]
    exact Bool.false_ne_true

/-- What holds of every line holds throughout what is logged. -/
theorem Throughout.loggedLines {P : List (Moment ε α) → Moment ε α → Prop}
    {verbosity : Option VerbositySetting} {past : List (Moment ε α)}
    (h : ∀ past line, P past (.logged line)) (severity : Severity) (message : String) :
    Throughout P past (loggedLines verbosity severity message) := by
  cases verbosity with
  | none => trivial
  | some v =>
    show Throughout P past ((v.lines severity message).map .logged)
    induction v.lines severity message generalizing past with
    | nil => trivial
    | cons line rest ih => exact ⟨h past line, ih⟩

/-- What is logged when a node is entered. -/
def entryLines (a : Adapter) (verbosity : Option VerbositySetting) (path : List PathEntry)
    (node : Value) : List (Moment ε α) :=
  loggedLines verbosity .debug
    ("enter " ++ (a.kindOf node).getD "None" ++ " at " ++ a.location path)

/-- Where a breach at a node is reported. -/
def Adapter.placeOf (a : Adapter) (path : List PathEntry) (node : Value) : Place :=
  ⟨a.kindOf node, a.location path⟩

/-- What is logged of a breach at a node. -/
def breachLines (a : Adapter) (verbosity : Option VerbositySetting) (path : List PathEntry)
    (node : Value) (breach : Breach) : List (Moment ε α) :=
  loggedLines verbosity .error (breach.message (a.placeOf path node))

/-! ## The rules -/

/-- How the second phase of a step goes, from its resumption on. -/
inductive Resumption (a : Adapter) (verbosity : Option VerbositySetting) (path : List PathEntry)
    (node : Value) (children : Children α) :
    List (Moment ε α) → Except (Failure ε) (Option α) → Prop where
  | failed (e : ε) : Resumption a verbosity path node children
      [.resumed node path children (.failed e)] (.error (.step e))
  | finished (result : α) : Resumption a verbosity path node children
      [.resumed node path children (.finished (some result))] (.ok (some result))
  | missing : Resumption a verbosity path node children
      (.resumed node path children (.finished none) ::
        breachLines a verbosity path node .missingResult)
      (.error (.breach .missingResult (a.placeOf path node)))
  | closeFailed (e : ε) : Resumption a verbosity path node children
      [.resumed node path children .suspended, .closed node path (some e)] (.error (.step e))
  | closed : Resumption a verbosity path node children
      (.resumed node path children .suspended :: .closed node path none ::
        breachLines a verbosity path node .suspendedTwice)
      (.error (.breach .suspendedTwice (a.placeOf path node)))

mutual

/-- How the visit of a node goes: the step is called, the children are visited with
    what it handed down, and it is resumed if it had suspended. -/
inductive Visit (a : Adapter) (verbosity : Option VerbositySetting) :
    List PathEntry → Option α → Value → List (Moment ε α) →
    Except (Failure ε) (Option α) → Prop where
  | failed {path acc node} (e : ε) : Visit a verbosity path acc node
      (entryLines a verbosity path node ++ [.called node path acc (.failed e)])
      (.error (.step e))
  | sealed {path acc node} (answer : Answer ε α) (hanswer : ∀ e, answer ≠ .failed e)
      (hchildren : a.children? node = none) : Visit a verbosity path acc node
      (entryLines a verbosity path node ++ [.called node path acc answer])
      (.error (.noFields node.typeName))
  | finished {path acc node children inner ended} (result : Option α)
      (hchildren : a.children? node = some children)
      (hinner : VisitAll a verbosity path node (result <|> acc) children inner ended) :
      Visit a verbosity path acc node
        (entryLines a verbosity path node ++ .called node path acc (.finished result) :: inner)
        (ended.map fun _ => result)
  | interrupted {path acc node children inner} (yielded : Option α) (failure : Failure ε)
      (hchildren : a.children? node = some children)
      (hinner : VisitAll a verbosity path node (yielded <|> acc) children inner
        (.error failure)) :
      Visit a verbosity path acc node
        (entryLines a verbosity path node ++ .called node path acc (.suspended yielded) :: inner)
        (.error failure)
  | resumed {path acc node children inner visits after ended} (yielded : Option α)
      (hchildren : a.children? node = some children)
      (hinner : VisitAll a verbosity path node (yielded <|> acc) children inner (.ok visits))
      (hafter : Resumption a verbosity path node (Children.ofVisits visits) after ended) :
      Visit a verbosity path acc node
        (entryLines a verbosity path node ++
          .called node path acc (.suspended yielded) :: (inner ++ after))
        ended

/-- How the visits of the children of a node go: one after the other, until one
    fails. -/
inductive VisitAll (a : Adapter) (verbosity : Option VerbositySetting) :
    List PathEntry → Value → Option α → List (Slot × Value) → List (Moment ε α) →
    Except (Failure ε) (List (Slot × Option α)) → Prop where
  | nil {path parent acc} : VisitAll a verbosity path parent acc [] [] (.ok [])
  | failed {path parent acc first failure} (slot : Slot) (child : Value)
      (rest : List (Slot × Value))
      (hfirst : Visit a verbosity (path ++ [slot.entry parent]) acc child first
        (.error failure)) :
      VisitAll a verbosity path parent acc ((slot, child) :: rest) first (.error failure)
  | cons {path parent acc first others result ended} (slot : Slot) (child : Value)
      (rest : List (Slot × Value))
      (hfirst : Visit a verbosity (path ++ [slot.entry parent]) acc child first (.ok result))
      (hrest : VisitAll a verbosity path parent acc rest others ended) :
      VisitAll a verbosity path parent acc ((slot, child) :: rest) (first ++ others)
        (ended.map fun results => (slot, result) :: results)

end

/-- A mapped end is normal only if the end itself is. -/
theorem exists_of_map_eq_ok {f : β → γ} {fin : Except ε β} {c : γ}
    (h : fin.map f = .ok c) : ∃ b, fin = .ok b ∧ f b = c := by
  cases fin with
  | error failure => cases h
  | ok b => exact ⟨b, rfl, Except.ok.inj h⟩

/-! ## Computations that record

A part of a watched walk leaves the path as it was and adds some moments to what
has been seen.  `Records path m P` says so of a part `m` that runs at `path`, with
a condition `P` on the moments it adds and on its end. -/

/-- The result of a computation with the given end. -/
def ended : Except (Failure ε) β → WalkState σ → EStateM.Result (Failure ε) (WalkState σ) β
  | .ok result, s => .ok result s
  | .error failure, s => .error failure s

/-- Run at `path`, the part `m` of a watched walk comes back to `path` and adds
    moments that satisfy `P` together with the end it comes to. -/
def Records (path : List PathEntry) (m : Walk (Watched σ ε α) ε β)
    (P : List (Moment ε α) → Except (Failure ε) β → Prop) : Prop :=
  ∀ own seen, ∃ own' added fin,
    m ⟨path, ⟨own, seen⟩⟩ = ended fin ⟨path, ⟨own', seen ++ added⟩⟩ ∧ P added fin

namespace Records

variable {path : List PathEntry} {m : Walk (Watched σ ε α) ε β}
  {P : List (Moment ε α) → Except (Failure ε) β → Prop}

/-- To do nothing records nothing. -/
theorem pure {b : β} (h : P [] (.ok b)) :
    Records path (Pure.pure b : Walk (Watched σ ε α) ε β) P := by
  intro own seen
  refine ⟨own, [], .ok b, ?_, h⟩
  rw [List.append_nil]
  rfl

/-- To fail records nothing. -/
theorem throw {failure : Failure ε} (h : P [] (.error failure)) :
    Records path (throw failure : Walk (Watched σ ε α) ε β) P := by
  intro own seen
  refine ⟨own, [], .error failure, ?_, h⟩
  rw [List.append_nil]
  rfl

/-- The second part adds its moments to those of the first, and runs only if the
    first part did not fail. -/
theorem bind {f : β → Walk (Watched σ ε α) ε γ}
    {Q : List (Moment ε α) → Except (Failure ε) γ → Prop} (hm : Records path m P)
    (hok : ∀ added b, P added (.ok b) →
      Records path (f b) fun more fin => Q (added ++ more) fin)
    (herror : ∀ added failure, P added (.error failure) → Q added (.error failure)) :
    Records path (m >>= f) Q := by
  intro own seen
  obtain ⟨own', added, fin, hrun, hP⟩ := hm own seen
  -- The second part starts from what the first part has left behind.
  show ∃ own' added fin, EStateM.bind m f _ = _ ∧ _
  unfold EStateM.bind
  rw [hrun]
  cases fin with
  | error failure => exact ⟨own', added, .error failure, rfl, herror added failure hP⟩
  | ok b =>
    obtain ⟨own'', more, fin, hrun', hQ⟩ := hok added b hP own' (seen ++ added)
    refine ⟨own'', added ++ more, fin, ?_, hQ⟩
    rw [← List.append_assoc]
    exact hrun'

/-- If it is known what the first part adds and gives, the second part is all there
    is to look at. -/
theorem bind_known {added : List (Moment ε α)} {b : β} {f : β → Walk (Watched σ ε α) ε γ}
    {Q : List (Moment ε α) → Except (Failure ε) γ → Prop}
    (hm : Records path m fun added' fin => added' = added ∧ fin = .ok b)
    (hf : Records path (f b) fun more fin => Q (added ++ more) fin) :
    Records path (m >>= f) Q := by
  refine hm.bind ?_ ?_
  · intro added' b' hknown
    obtain ⟨rfl, hb⟩ := hknown
    rw [Except.ok.inj hb]
    exact hf
  · intro added' failure hknown
    cases hknown.2

/-- What is known of the recorded moments may be weakened. -/
theorem mono {Q : List (Moment ε α) → Except (Failure ε) β → Prop} (hm : Records path m P)
    (h : ∀ added fin, P added fin → Q added fin) : Records path m Q := by
  intro own seen
  obtain ⟨own', added, fin, hrun, hP⟩ := hm own seen
  exact ⟨own', added, fin, hrun, h added fin hP⟩

/-- A part of the step that is watched adds the one moment that its end amounts to.
    Its result may be changed by `g` before it is used; its failure ends the walk. -/
theorem bind_lift {part : EStateM ε σ β} {moment : Except ε β → Moment ε α} {g : β → γ}
    {f : γ → Walk (Watched σ ε α) ε δ} {Q : List (Moment ε α) → Except (Failure ε) δ → Prop}
    (hok : ∀ b, Records path (f (g b)) fun more fin => Q (moment (.ok b) :: more) fin)
    (herror : ∀ e, Q [moment (.error e)] (.error (.step e))) :
    Records path
      (Walk.ofStep (Watched.lift part moment >>= fun b => Pure.pure (g b)) >>= f) Q := by
  intro own seen
  show ∃ own' added fin, EStateM.bind
    (Walk.ofStep (EStateM.bind (Watched.lift part moment) fun b => Pure.pure (g b))) f _ = _ ∧ _
  unfold EStateM.bind Walk.ofStep
  -- If the part raises, its own moment is the last; otherwise it stands before the others.
  cases hpart : part own with
  | error e own' =>
    have hlift : Watched.lift part moment ⟨own, seen⟩ = _ := Watched.lift_error hpart
    simp only [hlift]
    exact ⟨own', [moment (.error e)], .error (.step e), rfl, herror e⟩
  | ok b own' =>
    have hlift : Watched.lift part moment ⟨own, seen⟩ = _ := Watched.lift_ok hpart
    obtain ⟨own'', more, fin, hrun, hQ⟩ := hok b own' (seen ++ [moment (.ok b)])
    simp only [hlift]
    rw [List.append_assoc] at hrun
    exact ⟨own'', moment (.ok b) :: more, fin, hrun, hQ⟩

/-- One level down the path is longer by one entry, and afterwards as before. -/
theorem descend {entry : PathEntry} (hm : Records (path ++ [entry]) m P) :
    Records path (Walk.descend entry m) P := by
  intro own seen
  obtain ⟨own', added, fin, hrun, hP⟩ := hm own seen
  refine ⟨own', added, fin, ?_, hP⟩
  unfold Walk.descend
  rw [hrun]
  cases fin with
  | ok b => simp [ended]
  | error failure => simp [ended]

end Records

/-! ## Walks follow the rules -/

namespace Walker

/-- The walker with its step and its logger watched. -/
def watched (w : Walker σ ε α) : Walker (Watched σ ε α) ε α where
  step := w.step.watched
  adapter := w.adapter
  logger := w.logger.map Logger.watched

/-- The verbosity of a walk, if it is logged at all. -/
def verbosity (w : Walker σ ε α) : Option VerbositySetting :=
  w.logger.map Logger.verbosity

variable (w : Walker σ ε α) {path : List PathEntry}

/-- To ask for the context records nothing. -/
theorem context_records :
    Records path w.watched.context fun added fin =>
      added = [] ∧ fin = .ok { path, adapter := some w.adapter } := by
  intro own seen
  refine ⟨own, [], .ok { path, adapter := some w.adapter }, ?_, rfl, rfl⟩
  rw [List.append_nil]
  rfl

/-- To log a message records the lines that the level shows. -/
theorem log_records (severity : Severity) (message : String) :
    Records path (w.watched.log severity message) fun added fin =>
      added = loggedLines w.verbosity severity message ∧ fin = .ok () := by
  intro own seen
  cases hl : w.logger with
  | none =>
    refine ⟨own, [], .ok (), ?_, by simp [loggedLines, verbosity, hl], rfl⟩
    simp only [log, watched, hl, Option.map_none, List.append_nil]
    rfl
  | some logger =>
    refine ⟨logger.log severity message own,
      (logger.verbosity.lines severity message).map .logged, .ok (), ?_,
      by simp [loggedLines, verbosity, hl], rfl⟩
    have hlog := Logger.log_watched logger severity message (⟨own, seen⟩ : Watched σ ε α)
    simp only [log, watched, hl, Option.map_some]
    show EStateM.Result.ok () (⟨path, _⟩ : WalkState (Watched σ ε α)) = _
    rw [hlog]
    rfl

/-- To log an entry records its lines. -/
theorem logEntry_records (node : Value) :
    Records path (w.watched.logEntry (w.adapter.kindOf node)) fun added fin =>
      added = entryLines w.adapter w.verbosity path node ∧ fin = .ok () := by
  unfold logEntry
  refine w.context_records.bind_known ?_
  exact w.log_records .debug _

/-- To report a breach records its lines and fails. -/
theorem fail_records (breach : Breach) (node : Value) :
    Records path (w.watched.fail (β := β) breach (w.adapter.kindOf node)) fun added fin =>
      added = breachLines w.adapter w.verbosity path node breach ∧
        fin = .error (.breach breach (w.adapter.placeOf path node)) := by
  unfold fail
  refine w.context_records.bind_known ?_
  refine (w.log_records .error _).bind_known ?_
  refine .throw ⟨?_, rfl⟩
  rw [List.append_nil]
  rfl

/-- Calling a node adds the moment of the call; a step that suspended stays
    watched. -/
theorem call_records {node : Value} {acc : Option α}
    {f : Started (Watched σ ε α) ε α → Walk (Watched σ ε α) ε β}
    {Q : List (Moment ε α) → Except (Failure ε) β → Prop}
    (hok : ∀ started : Started σ ε α, Records path (f (started.watched node)) fun more fin =>
      Q (.called node path acc (.ofStart (.ok started)) :: more) fin)
    (herror : ∀ e, Q [.called node path acc (.failed e)] (.error (.step e))) :
    Records path (w.watched.call node acc >>= f) Q := by
  rw [call_eq, bind_assoc]
  refine w.context_records.bind_known ?_
  exact .bind_lift hok herror

/-- Resuming a watched step goes by the rules of its second phase. -/
theorem resume_records (node : Value)
    (resume : Children α → Context → EStateM ε σ (Resumed σ ε α)) (children : Children α) :
    Records path (w.watched.resume (w.adapter.kindOf node)
        (fun children context =>
          Watched.lift (resume children context) (fun fin =>
            .resumed node context.path children (.ofResumption fin)) >>= fun resumed =>
              pure (resumed.watched node)) children)
      (Resumption w.adapter w.verbosity path node children) := by
  unfold Walker.resume
  refine w.context_records.bind_known (.bind_lift ?_ .failed)
  intro resumed
  cases resumed with
  | finished result =>
    cases result with
    | some result => exact .pure (.finished result)
    | none =>
      refine (w.fail_records .missingResult node).mono ?_
      intro lines fin ⟨hlines, hfin⟩
      rw [hlines, hfin]
      exact .missing
  | suspended close =>
    -- Closing gives no result of its own, so there is nothing to change in it.
    show Records path (Walk.ofStep (Watched.lift (close _) _) >>= _) _
    rw [← bind_pure (Watched.lift (close _) _)]
    refine .bind_lift ?_ .closeFailed
    intro _
    refine (w.fail_records .suspendedTwice node).mono ?_
    intro lines fin ⟨hlines, hfin⟩
    rw [hlines, hfin]
    exact .closed

mutual

/-- The visit of a node, through the tree that the adapter shows below it, goes by
    the rules. -/
theorem visit_records : ∀ (tree : Tree) (node : Value), w.adapter.view node = tree →
    ∀ (path : List PathEntry) (acc : Option α),
      Records path (w.watched.visit tree acc) (Visit w.adapter w.verbosity path acc node)
  | .sealed value, node, hview, path, acc => by
    rw [Adapter.view_eq] at hview
    cases hchildren : w.adapter.children? node with
    | some children => simp [hchildren] at hview
    | none =>
      obtain rfl : node = value := by simpa [hchildren] using hview
      -- A value whose fields cannot be listed has no kind, which is what is logged.
      have hkind : w.adapter.kindOf node = none :=
        Adapter.kindOf_of_not_reads ((w.adapter.children?_eq_none_iff node).mp hchildren)
      unfold visit
      rw [← hkind]
      refine (w.logEntry_records node).bind_known (w.call_records ?_ .failed)
      intro started
      refine .throw (.sealed _ ?_ hchildren)
      cases started with
      | finished result => simp [Answer.ofStart]
      | suspended yielded resume => simp [Answer.ofStart]
  | .node value kind trees, node, hview, path, acc => by
    rw [Adapter.view_eq] at hview
    cases hchildren : w.adapter.children? node with
    | none => simp [hchildren] at hview
    | some children =>
      obtain ⟨rfl, rfl, htrees⟩ : node = value ∧ w.adapter.kindOf node = kind ∧
          children.map (fun child => (child.1, w.adapter.view child.2)) = trees := by
        simpa [hchildren] using hview
      unfold visit
      refine (w.logEntry_records node).bind_known (w.call_records ?_ .failed)
      intro started
      -- The two cases differ in what is handed down and in what comes afterwards.
      cases started with
      | finished result =>
        have hinner := visitAll_records node trees children htrees path (result <|> acc)
        refine hinner.bind ?_ ?_
        · intro inner visits hinner
          refine .pure ?_
          rw [List.append_nil]
          exact .finished result hchildren hinner
        · intro inner failure hinner
          exact .finished result hchildren hinner
      | suspended yielded resume =>
        have hinner := visitAll_records node trees children htrees path (yielded <|> acc)
        refine hinner.bind ?_ ?_
        · intro inner visits hinner
          refine (w.resume_records node resume (Children.ofVisits visits)).mono ?_
          intro after fin hafter
          exact .resumed yielded hchildren hinner hafter
        · intro inner failure hinner
          exact .interrupted yielded failure hchildren hinner

/-- The visits of children record one after the other, up to one that fails. -/
theorem visitAll_records (parent : Value) : ∀ (trees : List (Slot × Tree))
    (children : List (Slot × Value)),
    children.map (fun child => (child.1, w.adapter.view child.2)) = trees →
    ∀ (path : List PathEntry) (acc : Option α),
      Records path (w.watched.visitAll parent trees acc)
        (VisitAll w.adapter w.verbosity path parent acc children)
  | [], children, hview, path, acc => by
    obtain rfl := List.map_eq_nil_iff.mp hview
    unfold visitAll
    exact .pure .nil
  | (slot, tree) :: trees, children, hview, path, acc => by
    obtain ⟨⟨place, child⟩, rest, rfl, hhead, hrest⟩ := List.map_eq_cons_iff.mp hview
    obtain ⟨rfl, hchild⟩ := Prod.mk.inj hhead
    unfold visitAll
    refine (Records.descend (visit_records tree child hchild _ acc)).bind ?_ ?_
    · intro first result hfirst
      refine (visitAll_records parent trees rest hrest path acc).bind ?_ ?_
      · intro others results hothers
        refine .pure ?_
        rw [List.append_nil]
        exact .cons place child rest hfirst hothers
      · intro others failure hothers
        exact .cons place child rest hfirst hothers
    · intro first failure hfirst
      exact .failed place child rest hfirst

end

end Walker

/-- The history of a walk goes by the rules of the visit of its root, and the walk
    leaves an empty path behind. -/
theorem visit_history (root : Value) (step : Step σ ε α) (init : Option α) (own : σ)
    (adapter : Option Adapter) (logger : Option (Logger σ)) :
    Visit (adapter.getD (.default root)) (logger.map Logger.verbosity) [] init root
        (history root step init own adapter logger)
        (traverse root step init own adapter logger).outcome ∧
      (traverse root step init own adapter logger).path = [] := by
  obtain ⟨houtcome, hpath, -⟩ := traverse_watched root step init own adapter logger
  -- The walk starts with the empty path, and with nothing seen.
  obtain ⟨own', added, fin, hrun, hvisit⟩ :=
    (traverseWalker root step adapter logger).visit_records _ root rfl [] init own []
  have hended : traverseWatched root step init own adapter logger =
      .ofVisit (ended fin ⟨[], ⟨own', added⟩⟩) := by
    rw [traverseWatched, traverse_eq]
    exact congrArg Ending.ofVisit hrun
  rw [← houtcome, ← hpath, history, hended]
  cases fin with
  | ok result => exact ⟨hvisit, rfl⟩
  | error failure => exact ⟨hvisit, rfl⟩

/-! ## Invariants of a walk -/

/-- What makes `P` hold throughout a walk: a relation `Inv` between the past and the
    visit of a node with a path and an accumulator, which is kept as time goes by,
    is handed on from a node to its children once the node has been called, and
    gives `P` at every moment of the step at the node. -/
structure Invariant (a : Adapter) (P : List (Moment ε α) → Moment ε α → Prop)
    (Inv : List (Moment ε α) → List PathEntry → Option α → Value → Prop) : Prop where
  later : ∀ {past more path acc node}, Inv past path acc node → Inv (past ++ more) path acc node
  child : ∀ {past path acc node slot child} (answer : Answer ε α), Inv past path acc node →
    a.IsChild node slot child →
    Inv (past ++ [.called node path acc answer]) (path ++ [slot.entry node])
      (answer.handed <|> acc) child
  logged : ∀ {past} (line : String), P past (.logged line)
  called : ∀ {past path acc node} (answer : Answer ε α), Inv past path acc node →
    P past (.called node path acc answer)
  resumed : ∀ {past path acc node yielded} (children : Children α) (reply : Reply ε α),
    Inv past path acc node → .called node path acc (.suspended yielded) ∈ past →
    P past (.resumed node path children reply)
  closed : ∀ {past path acc node yielded} (failure : Option ε),
    Inv past path acc node → .called node path acc (.suspended yielded) ∈ past →
    P past (.closed node path failure)

namespace Invariant

variable {a : Adapter} {verbosity : Option VerbositySetting}
  {P : List (Moment ε α) → Moment ε α → Prop}
  {Inv : List (Moment ε α) → List PathEntry → Option α → Value → Prop}
  {past : List (Moment ε α)}

/-- Lines that are logged keep an invariant. -/
theorem loggedLines (hI : Invariant a P Inv) (severity : Severity) (message : String) :
    Throughout P past (loggedLines verbosity severity message) :=
  .loggedLines (fun _ line => hI.logged line) severity message

/-- A resumption keeps an invariant. -/
theorem resumption (hI : Invariant a P Inv) {path : List PathEntry} {acc : Option α}
    (yielded : Option α) {node : Value} {children : Children α} {moments : List (Moment ε α)}
    {fin : Except (Failure ε) (Option α)}
    (h : Resumption a verbosity path node children moments fin) (hinv : Inv past path acc node)
    (hcalled : .called node path acc (.suspended yielded) ∈ past) :
    Throughout P past moments := by
  have hclosed : ∀ failure, P (past ++ [.resumed node path children .suspended])
      (.closed node path failure) :=
    fun failure => hI.closed failure (hI.later hinv) (List.mem_append_left _ hcalled)
  cases h with
  | failed e => exact ⟨hI.resumed _ _ hinv hcalled, trivial⟩
  | finished result => exact ⟨hI.resumed _ _ hinv hcalled, trivial⟩
  | missing => exact ⟨hI.resumed _ _ hinv hcalled, hI.loggedLines _ _⟩
  | closeFailed e => exact ⟨hI.resumed _ _ hinv hcalled, hclosed (some e), trivial⟩
  | closed => exact ⟨hI.resumed _ _ hinv hcalled, hclosed none, hI.loggedLines _ _⟩

/-- A node that has been called hands the invariant on to all its children. -/
private theorem handOn (hI : Invariant a P Inv) {path : List PathEntry} {acc : Option α}
    {node : Value} {children : List (Slot × Value)} (hchildren : a.children? node = some children)
    (answer : Answer ε α) (hinv : Inv past path acc node) :
    ∀ child ∈ children, Inv (past ++ [.called node path acc answer])
      (path ++ [child.1.entry node]) (answer.handed <|> acc) child.2 :=
  fun _ hmem => hI.child answer hinv ((Adapter.mem_children?_iff hchildren).mp hmem)

mutual

/-- An invariant that holds when a node is visited makes `P` hold throughout the
    visit. -/
theorem visit (hI : Invariant a P Inv) {path : List PathEntry} {acc : Option α} {node : Value}
    {moments past : List (Moment ε α)} {fin : Except (Failure ε) (Option α)}
    (h : Visit a verbosity path acc node moments fin) (hinv : Inv past path acc node) :
    Throughout P past moments := by
  have hnow : Inv (past ++ entryLines a verbosity path node) path acc node := hI.later hinv
  have hcalled : ∀ answer, P (past ++ entryLines a verbosity path node)
      (.called node path acc answer) :=
    fun answer => hI.called answer hnow
  match h with
  | .failed e => exact (hI.loggedLines _ _).append ⟨hcalled (.failed e), trivial⟩
  | .sealed answer _ _ => exact (hI.loggedLines _ _).append ⟨hcalled answer, trivial⟩
  | .finished result hchildren hinner =>
    have hbelow := hI.visitAll hinner (hI.handOn hchildren (.finished result) hnow)
    exact (hI.loggedLines _ _).append ⟨hcalled (.finished result), hbelow⟩
  | .interrupted yielded failure hchildren hinner =>
    have hbelow := hI.visitAll hinner (hI.handOn hchildren (.suspended yielded) hnow)
    exact (hI.loggedLines _ _).append ⟨hcalled (.suspended yielded), hbelow⟩
  | .resumed yielded hchildren hinner hafter =>
    have hbelow := hI.visitAll hinner (hI.handOn hchildren (.suspended yielded) hnow)
    refine (hI.loggedLines _ _).append ⟨hcalled (.suspended yielded), hbelow.append ?_⟩
    -- The call is still in the past when the step is resumed.
    refine hI.resumption yielded hafter (hI.later (hI.later hnow)) ?_
    exact List.mem_append_left _ (List.mem_append_right _ (List.mem_singleton.mpr rfl))
termination_by structural h

/-- The visits of children keep an invariant. -/
theorem visitAll (hI : Invariant a P Inv) {path : List PathEntry} {acc : Option α}
    {parent : Value} {children : List (Slot × Value)} {moments past : List (Moment ε α)}
    {fin : Except (Failure ε) (List (Slot × Option α))}
    (h : VisitAll a verbosity path parent acc children moments fin)
    (hinv : ∀ child ∈ children, Inv past (path ++ [child.1.entry parent]) acc child.2) :
    Throughout P past moments := by
  match h with
  | .nil => trivial
  | .failed slot child rest hfirst =>
    exact hI.visit hfirst (hinv (slot, child) List.mem_cons_self)
  | .cons slot child rest hfirst hrest =>
    have hfirst' := hI.visit hfirst (hinv (slot, child) List.mem_cons_self)
    -- What happened below the first child only adds to the past of its siblings.
    exact hfirst'.append (hI.visitAll hrest fun sibling hmem =>
      hI.later (hinv sibling (List.mem_cons_of_mem _ hmem)))
termination_by structural h

end

end Invariant

/-- An invariant that holds at the root makes `P` hold throughout the history of a
    walk. -/
theorem Invariant.history {root : Value} {adapter : Option Adapter}
    {P : List (Moment ε α) → Moment ε α → Prop}
    {Inv : List (Moment ε α) → List PathEntry → Option α → Value → Prop}
    (hI : Invariant (adapter.getD (.default root)) P Inv) {init : Option α}
    (hinit : Inv [] [] init root) (step : Step σ ε α) (own : σ) (logger : Option (Logger σ)) :
    Throughout P [] (history root step init own adapter logger) :=
  hI.visit (visit_history root step init own adapter logger).1 hinit

end TreeWalk
