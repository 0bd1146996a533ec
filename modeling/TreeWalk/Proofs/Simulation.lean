import TreeWalk.Walk

/-! # Walks side by side

Two walks go alike if their trees, their steps and their loggers do.  What "alike" means
is up to a `Likeness`, which relates the states of the two steps, the contexts that they
are handed and the nodes that they are called at: from related states both computations
end in the same way, with related results, and leave related states behind.

## Key results

* `Walker.call_eq` says that the walk sees of a step only what `Step.start` gives.
* `Walker.visit_agree` lifts the agreement of two steps to the visits of trees that are
  alike.
* `traverse_agree` does so for whole walks.
-/

namespace TreeWalk

variable {σ σ' ε α β β' γ γ' : Type}

/-! ## Computations in two parts -/

/-- A computation whose first part ends normally goes on with its result. -/
theorem bind_of_ok {m : EStateM ε σ β} {f : β → EStateM ε σ γ} {s t : σ} {b : β}
    (h : m s = .ok b t) : (m >>= f) s = f b t := by
  show EStateM.bind m f s = _
  unfold EStateM.bind
  rw [h]

/-- A computation whose first part fails ends with that. -/
theorem bind_of_error {m : EStateM ε σ β} {f : β → EStateM ε σ γ} {s t : σ} {e : ε}
    (h : m s = .error e t) : (m >>= f) s = .error e t := by
  show EStateM.bind m f s = _
  unfold EStateM.bind
  rw [h]

/-! ## Computations that agree -/

/-- From states related by `R` two computations end alike, in states related by
    `R`, and their results are related by `V`. -/
def Agree (R : σ → σ' → Prop) (V : β → β' → Prop) (m : EStateM ε σ β)
    (m' : EStateM ε σ' β') : Prop :=
  ∀ s s', R s s' → match m s, m' s' with
    | .ok b t, .ok b' t' => V b b' ∧ R t t'
    | .error e t, .error e' t' => e = e' ∧ R t t'
    | _, _ => False

namespace Agree

variable {R : σ → σ' → Prop} {V : β → β' → Prop} {W : γ → γ' → Prop}

/-- To do nothing agrees. -/
theorem pure {b : β} {b' : β'} (h : V b b') :
    Agree (ε := ε) R V (Pure.pure b) (Pure.pure b') :=
  fun _ _ hs => ⟨h, hs⟩

/-- To raise the same agrees. -/
theorem throw (e : ε) : Agree R V (throw e : EStateM ε σ β) (throw e : EStateM ε σ' β') :=
  fun _ _ hs => ⟨rfl, hs⟩

/-- Computations agree if their first parts do and whatever follows related
    results agrees. -/
theorem bind {m : EStateM ε σ β} {m' : EStateM ε σ' β'} {f : β → EStateM ε σ γ}
    {f' : β' → EStateM ε σ' γ'} (hm : Agree R V m m')
    (hf : ∀ b b', V b b' → Agree R W (f b) (f' b')) : Agree R W (m >>= f) (m' >>= f') := by
  intro s s' hs
  have hms := hm s s' hs
  show match EStateM.bind m f s, EStateM.bind m' f' s' with
    | .ok b t, .ok b' t' => W b b' ∧ R t t'
    | .error e t, .error e' t' => e = e' ∧ R t t'
    | _, _ => False
  unfold EStateM.bind
  -- The first parts end alike, so two of the four cases are impossible.
  cases hr : m s with
  | ok b t =>
    cases hr' : m' s' with
    | ok b' t' =>
      rw [hr, hr'] at hms
      exact hf b b' hms.1 t t' hms.2
    | error e' t' => simp [hr, hr'] at hms
  | error e t =>
    cases hr' : m' s' with
    | ok b' t' => simp [hr, hr'] at hms
    | error e' t' =>
      rw [hr, hr'] at hms
      exact hms

/-- From one state a computation ends in one way. -/
theorem of_eq {m m' : EStateM ε σ β} (h : m = m') : Agree Eq Eq m m' := by
  intro s s' hs
  subst h hs
  cases m s <;> exact ⟨rfl, rfl⟩

/-- Results that are related by equality are one result. -/
theorem bind_eq {m : EStateM ε σ β} {m' : EStateM ε σ' β} {f : β → EStateM ε σ γ}
    {f' : β → EStateM ε σ' γ'} (hm : Agree R Eq m m') (hf : ∀ b, Agree R W (f b) (f' b)) :
    Agree R W (m >>= f) (m' >>= f') := by
  refine hm.bind ?_
  intro b b' heq
  rw [← heq]
  exact hf b

/-- A computation goes on agreeing when only its result is changed. -/
theorem map_left {m : EStateM ε σ β} {m' : EStateM ε σ' β'} {f : β → γ}
    {W : γ → β' → Prop} (hm : Agree R V m m') (hf : ∀ b b', V b b' → W (f b) b') :
    Agree R W (m >>= fun b => Pure.pure (f b)) m' := by
  have h : Agree R W (m >>= fun b => Pure.pure (f b)) (m' >>= Pure.pure) :=
    hm.bind fun b b' hb => pure (hf b b' hb)
  rwa [bind_pure] at h

end Agree

/-! ## Likeness -/

/-- What is taken for alike in two walks. -/
structure Likeness (σ σ' : Type) where
  state : σ → σ' → Prop
  context : Context → Context → Prop
  node : Value → Value → Prop

namespace Likeness

/-- Only the states of the steps may differ. -/
def same (R : σ → σ' → Prop) : Likeness σ σ' := ⟨R, Eq, Eq⟩

/-- Whether the contexts of two walks through the given adapters are alike at two paths. -/
def Path (L : Likeness σ σ') (a a' : Adapter) (path path' : List PathEntry) : Prop :=
  L.context { path, adapter := some a } { path := path', adapter := some a' }

/-- Contexts that are alike describe themselves in the same way, and stay alike when both
    walks go down to children in the same slot, or up again. -/
structure Lawful (L : Likeness σ σ') (a a' : Adapter) : Prop where
  describe : ∀ {path path'}, L.Path a a' path path' →
    Context.describe { path, adapter := some a } =
      Context.describe { path := path', adapter := some a' }
  push : ∀ {path path' parent parent'} (slot : Slot), L.Path a a' path path' →
    L.node parent parent' →
    L.Path a a' (path ++ [slot.entry parent]) (path' ++ [slot.entry parent'])
  pop : ∀ {path path'}, L.Path a a' path path' → L.Path a a' path.dropLast path'.dropLast

/-- To be the same is a lawful likeness, whatever the states. -/
theorem lawful_same (R : σ → σ' → Prop) (a : Adapter) : (same R).Lawful a a where
  describe h := congrArg Context.describe h
  push := by
    intro path path' parent parent' slot hpath hnode
    obtain rfl : path = path' := congrArg Context.path hpath
    obtain rfl : parent = parent' := hnode
    rfl
  pop := by
    intro path path' hpath
    obtain rfl : path = path' := congrArg Context.path hpath
    rfl

end Likeness

namespace Tree

mutual

/-- Trees are alike if their nodes are, one for one, and have the same kinds and hang in the
    same slots. -/
inductive Alike (N : Value → Value → Prop) : Tree → Tree → Prop where
  | node {value value' kind children children'} (hnode : N value value')
      (hchildren : AlikeAll N children children') :
      Alike N (.node value kind children) (.node value' kind children')
  | sealed {value value'} (hnode : N value value') (htype : value.typeName = value'.typeName) :
      Alike N (.sealed value) (.sealed value')

inductive AlikeAll (N : Value → Value → Prop) :
    List (Slot × Tree) → List (Slot × Tree) → Prop where
  | nil : AlikeAll N [] []
  | cons {tree tree' rest rest'} (slot : Slot) (hfirst : Alike N tree tree')
      (hrest : AlikeAll N rest rest') :
      AlikeAll N ((slot, tree) :: rest) ((slot, tree') :: rest')

end

mutual

/-- Every tree is like itself. -/
theorem Alike.refl {N : Value → Value → Prop} (hrefl : ∀ value, N value value) :
    ∀ tree : Tree, Alike N tree tree
  | .node value _ children => .node (hrefl value) (AlikeAll.refl hrefl children)
  | .sealed value => .sealed (hrefl value) rfl

/-- Children are like themselves. -/
theorem AlikeAll.refl {N : Value → Value → Prop} (hrefl : ∀ value, N value value) :
    ∀ children : List (Slot × Tree), AlikeAll N children children
  | [] => .nil
  | (slot, tree) :: rest => .cons slot (Alike.refl hrefl tree) (AlikeAll.refl hrefl rest)

end

end Tree

/-! ## Steps that agree -/

/-- What a step gives once it has been called and, if it is a routine, started. -/
def Step.start (step : Step σ ε α) (node : Value) (acc : Option α) (context : Context) :
    EStateM ε σ (Started σ ε α) := do
  match ← step node acc context with
  | .returned result => return .finished result
  | .routine start => start

/-- Two resumed steps finish with the same result, or both suspend again and
    agree when they are closed. -/
inductive Resumed.Agree (L : Likeness σ σ') : Resumed σ ε α → Resumed σ' ε α → Prop where
  | finished (result : Option α) : Agree L (.finished result) (.finished result)
  | suspended {close : Context → EStateM ε σ Unit} {close' : Context → EStateM ε σ' Unit}
      (hclose : ∀ context context', L.context context context' →
        TreeWalk.Agree L.state Eq (close context) (close' context')) :
      Agree L (.suspended close) (.suspended close')

/-- Two started steps finish with the same result, or both suspend, hand down the
    same and agree when they are resumed. -/
inductive Started.Agree (L : Likeness σ σ') : Started σ ε α → Started σ' ε α → Prop where
  | finished (result : Option α) : Agree L (.finished result) (.finished result)
  | suspended (yielded : Option α)
      {resume : Children α → Context → EStateM ε σ (Resumed σ ε α)}
      {resume' : Children α → Context → EStateM ε σ' (Resumed σ' ε α)}
      (hresume : ∀ children context context', L.context context context' →
        TreeWalk.Agree L.state (Resumed.Agree L) (resume children context)
          (resume' children context')) :
      Agree L (.suspended yielded resume) (.suspended yielded resume')

/-- Two steps agree if they do wherever they are called and started. -/
def Step.Agree (L : Likeness σ σ') (step : Step σ ε α) (step' : Step σ' ε α) : Prop :=
  ∀ node node' acc context context', L.node node node' → L.context context context' →
    TreeWalk.Agree L.state (Started.Agree L) (step.start node acc context)
      (step'.start node' acc context')

/-! ## Walks that agree -/

/-- States of two walks are related if the walks are at paths that are alike and the states
    of the steps are. -/
def WalkState.Rel (L : Likeness σ σ') (a a' : Adapter) (s : WalkState σ) (s' : WalkState σ') :
    Prop :=
  L.Path a a' s.path s'.path ∧ L.state s.own s'.own

namespace Walk

variable {L : Likeness σ σ'} {a a' : Adapter} {V : β → β' → Prop}

/-- What steps do within walks agrees if the steps do. -/
theorem ofStep_agree {part : EStateM ε σ β} {part' : EStateM ε σ' β'}
    (h : Agree L.state V part part') :
    Agree (WalkState.Rel L a a') V (ofStep part) (ofStep part') := by
  intro s s' hs
  -- One side ends as the other does, so two of the four cases are left.
  have hparts := h s.own s'.own hs.2
  unfold ofStep
  cases hr : part s.own with
  | ok b t =>
    cases hr' : part' s'.own with
    | ok b' t' =>
      rw [hr, hr'] at hparts
      exact ⟨hparts.1, hs.1, hparts.2⟩
    | error e' t' => simp [hr, hr'] at hparts
  | error e t =>
    cases hr' : part' s'.own with
    | ok b' t' => simp [hr, hr'] at hparts
    | error e' t' =>
      rw [hr, hr'] at hparts
      exact ⟨congrArg Failure.step hparts.1, hs.1, hparts.2⟩

/-- Walks that go down to a child agree if they do below it. -/
theorem descend_agree (hlaws : L.Lawful a a') (slot : Slot) {parent parent' : Value}
    (hparent : L.node parent parent') {body : Walk σ ε β} {body' : Walk σ' ε β'}
    (h : Agree (WalkState.Rel L a a') V body body') :
    Agree (WalkState.Rel L a a') V (descend (slot.entry parent) body)
      (descend (slot.entry parent') body') := by
  intro s s' hs
  have hbody := h { s with path := s.path ++ [slot.entry parent] }
    { s' with path := s'.path ++ [slot.entry parent'] } ⟨hlaws.push slot hs.1 hparent, hs.2⟩
  -- The entry is put on both paths and taken off them again, however the body ends.
  unfold descend
  cases hr : body { s with path := s.path ++ [slot.entry parent] } with
  | ok b t =>
    cases hr' : body' { s' with path := s'.path ++ [slot.entry parent'] } with
    | ok b' t' =>
      rw [hr, hr'] at hbody
      exact ⟨hbody.1, hlaws.pop hbody.2.1, hbody.2.2⟩
    | error e' t' => simp [hr, hr'] at hbody
  | error e t =>
    cases hr' : body' { s' with path := s'.path ++ [slot.entry parent'] } with
    | ok b' t' => simp [hr, hr'] at hbody
    | error e' t' =>
      rw [hr, hr'] at hbody
      exact ⟨hbody.1, hlaws.pop hbody.2.1, hbody.2.2⟩

end Walk

namespace Walker

/-- Calling a node is starting its step in the present context. -/
theorem call_eq (w : Walker σ ε α) (node : Value) (acc : Option α) :
    w.call node acc =
      w.context >>= fun context => Walk.ofStep (w.step.start node acc context) := by
  funext s
  unfold call Step.start Walk.ofStep
  simp only [bind, EStateM.bind, pure]
  cases hc : w.context s with
  | error e t => rfl
  | ok context t =>
    simp only []
    cases hs : w.step node acc context t.own with
    | error e own => rfl
    | ok outcome own =>
      -- Whether the step returns or is started is no longer visible.
      cases outcome with
      | returned result => rfl
      | routine start => rfl

/-- Children are visited one after the other, each one level down. -/
theorem visitAll_cons (w : Walker σ ε α) (parent : Value) (slot : Slot) (tree : Tree)
    (rest : List (Slot × Tree)) (acc : Option α) (path : List PathEntry) (own : σ) :
    w.visitAll parent ((slot, tree) :: rest) acc ⟨path, own⟩ =
      match w.visit tree acc ⟨path ++ [slot.entry parent], own⟩ with
      | .error failure s => .error failure { s with path := s.path.dropLast }
      | .ok result s =>
        match w.visitAll parent rest acc { s with path := s.path.dropLast } with
        | .error failure s => .error failure s
        | .ok results s => .ok ((slot, result) :: results) s := by
  rw [visitAll]
  -- The path is restored whether the first visit fails or not.
  cases hfirst : w.visit tree acc ⟨path ++ [slot.entry parent], own⟩ with
  | error failure s =>
    have hdescend : Walk.descend (slot.entry parent) (w.visit tree acc) ⟨path, own⟩ =
        .error failure { s with path := s.path.dropLast } := by
      unfold Walk.descend
      rw [hfirst]
    rw [bind_of_error hdescend]
  | ok result s =>
    have hdescend : Walk.descend (slot.entry parent) (w.visit tree acc) ⟨path, own⟩ =
        .ok result { s with path := s.path.dropLast } := by
      unfold Walk.descend
      rw [hfirst]
    rw [bind_of_ok hdescend]
    dsimp only
    cases hrest : w.visitAll parent rest acc { s with path := s.path.dropLast } with
    | error failure s' => rw [bind_of_error hrest]
    | ok results s' =>
      rw [bind_of_ok hrest]
      rfl

/-- Two walkers agree if their steps and whatever they log agree. -/
structure Agree (L : Likeness σ σ') (w : Walker σ ε α) (w' : Walker σ' ε α) : Prop where
  lawful : L.Lawful w.adapter w'.adapter
  step : Step.Agree L w.step w'.step
  log : ∀ severity message,
    TreeWalk.Agree (WalkState.Rel L w.adapter w'.adapter) Eq (w.log severity message)
      (w'.log severity message)

variable {L : Likeness σ σ'} {w : Walker σ ε α} {w' : Walker σ' ε α}

/-- The contexts of two walks at states that are related are alike, and describe themselves
    in the same way. -/
theorem context_agree (h : Agree L w w') :
    TreeWalk.Agree (WalkState.Rel L w.adapter w'.adapter)
      (fun context context' => L.context context context' ∧ context.describe = context'.describe)
      w.context w'.context :=
  fun _ _ hs => ⟨⟨hs.1, h.lawful.describe hs.1⟩, hs⟩

/-- Walkers that agree log entries alike. -/
theorem logEntry_agree (h : Agree L w w') (kind : Option String) :
    TreeWalk.Agree (WalkState.Rel L w.adapter w'.adapter) Eq (w.logEntry kind)
      (w'.logEntry kind) := by
  refine (context_agree h).bind ?_
  intro context context' ⟨_, hdescribe⟩
  rw [hdescribe]
  exact h.log .debug _

/-- Walkers that agree report breaches alike. -/
theorem fail_agree (h : Agree L w w') (breach : Breach) (kind : Option String) :
    TreeWalk.Agree (WalkState.Rel L w.adapter w'.adapter) (Eq (α := β)) (w.fail breach kind)
      (w'.fail breach kind) := by
  refine (context_agree h).bind ?_
  intro context context' ⟨_, hdescribe⟩
  simp only [hdescribe]
  refine (h.log .error _).bind_eq ?_
  intro _
  exact .throw _

/-- Walkers that agree call their steps alike. -/
theorem call_agree (h : Agree L w w') {node node' : Value} (hnode : L.node node node')
    (acc : Option α) :
    TreeWalk.Agree (WalkState.Rel L w.adapter w'.adapter) (Started.Agree L) (w.call node acc)
      (w'.call node' acc) := by
  rw [call_eq, call_eq]
  refine (context_agree h).bind ?_
  intro context context' ⟨hcontext, _⟩
  exact Walk.ofStep_agree (h.step node node' acc context context' hnode hcontext)

/-- Walkers that agree resume their steps alike. -/
theorem resume_agree (h : Agree L w w') (kind : Option String)
    {resume : Children α → Context → EStateM ε σ (Resumed σ ε α)}
    {resume' : Children α → Context → EStateM ε σ' (Resumed σ' ε α)}
    (hresume : ∀ children context context', L.context context context' →
      TreeWalk.Agree L.state (Resumed.Agree L) (resume children context)
        (resume' children context'))
    (children : Children α) :
    TreeWalk.Agree (WalkState.Rel L w.adapter w'.adapter) Eq (w.resume kind resume children)
      (w'.resume kind resume' children) := by
  refine (context_agree h).bind ?_
  intro context context' ⟨hcontext, _⟩
  refine (Walk.ofStep_agree (hresume children context context' hcontext)).bind ?_
  intro resumed resumed' hresumed
  -- A step that gave no result or suspended itself again is reported alike.
  cases hresumed with
  | finished result =>
    cases result with
    | some result => exact .pure rfl
    | none => exact fail_agree h .missingResult kind
  | suspended hclose =>
    refine (Walk.ofStep_agree (hclose context context' hcontext)).bind_eq ?_
    intro _
    exact fail_agree h .suspendedTwice kind

mutual

/-- Walkers that agree make visits of trees that are alike that agree. -/
theorem visit_agree (h : Agree L w w') {tree tree' : Tree} (htree : Tree.Alike L.node tree tree')
    (acc : Option α) :
    TreeWalk.Agree (WalkState.Rel L w.adapter w'.adapter) Eq (w.visit tree acc)
      (w'.visit tree' acc) := by
  match htree with
  | .sealed hnode htype =>
    unfold visit
    refine (logEntry_agree h none).bind_eq ?_
    intro _
    refine (call_agree h hnode acc).bind ?_
    intro _ _ _
    rw [htype]
    exact .throw _
  | @Tree.Alike.node _ node node' kind children children' hnode hchildren =>
    unfold visit
    refine (logEntry_agree h kind).bind_eq ?_
    intro _
    refine (call_agree h hnode acc).bind ?_
    intro started started' hstarted
    -- Both steps finish or both suspend, and then they hand down the same.
    cases hstarted with
    | finished result =>
      refine (visitAll_agree h hnode hchildren _).bind_eq ?_
      intro _
      exact .pure rfl
    | suspended yielded hresume =>
      refine (visitAll_agree h hnode hchildren _).bind_eq ?_
      intro visits
      exact resume_agree h kind hresume _
termination_by structural htree

/-- Walkers that agree visit children alike. -/
theorem visitAll_agree (h : Agree L w w') {parent parent' : Value}
    (hparent : L.node parent parent') {children children' : List (Slot × Tree)}
    (hchildren : Tree.AlikeAll L.node children children') (acc : Option α) :
    TreeWalk.Agree (WalkState.Rel L w.adapter w'.adapter) Eq (w.visitAll parent children acc)
      (w'.visitAll parent' children' acc) := by
  match hchildren with
  | .nil =>
    unfold visitAll
    exact .pure rfl
  | .cons slot hfirst hrest =>
    unfold visitAll
    refine (Walk.descend_agree h.lawful slot hparent (visit_agree h hfirst acc)).bind_eq ?_
    intro result
    refine (visitAll_agree h hparent hrest acc).bind_eq ?_
    intro results
    exact .pure rfl
termination_by structural hchildren

end

end Walker

/-- The walk that `traverse` makes. -/
def traverseWalker (root : Value) (step : Step σ ε α) (adapter : Option Adapter)
    (logger : Option (Logger σ)) : Walker σ ε α :=
  { step, adapter := adapter.getD (.default root), logger }

/-- The ending that a visit of the root amounts to. -/
def Ending.ofVisit : EStateM.Result (Failure ε) (WalkState σ) (Option α) → Ending σ ε α
  | .ok result s => ⟨.ok result, s.path, s.own⟩
  | .error failure s => ⟨.error failure, s.path, s.own⟩

/-- A walk is the visit of its root by its walker. -/
theorem traverse_eq (root : Value) (step : Step σ ε α) (init : Option α) (own : σ)
    (adapter : Option Adapter) (logger : Option (Logger σ)) :
    traverse root step init own adapter logger =
      .ofVisit ((traverseWalker root step adapter logger).visit
        ((adapter.getD (.default root)).view root) init ⟨[], own⟩) :=
  rfl

/-- Endings of two walks are related if the outcome is the same, and the paths and the final
    states of the steps are related. -/
structure Ending.Rel (L : Likeness σ σ') (a a' : Adapter) (e : Ending σ ε α)
    (e' : Ending σ' ε α) : Prop where
  outcome : e.outcome = e'.outcome
  path : L.Path a a' e.path e'.path
  own : L.state e.own e'.own

/-- Two walks go alike if their trees are alike and their steps and loggers agree. -/
theorem traverse_agree {L : Likeness σ σ'} {step : Step σ ε α} {step' : Step σ' ε α}
    {root root' : Value} (init : Option α) {own : σ} {own' : σ'} {adapter adapter' : Option Adapter}
    {logger : Option (Logger σ)} {logger' : Option (Logger σ')}
    (h : Walker.Agree L (traverseWalker root step adapter logger)
      (traverseWalker root' step' adapter' logger'))
    (hpath : L.Path (adapter.getD (.default root)) (adapter'.getD (.default root')) [] [])
    (hown : L.state own own')
    (htree : Tree.Alike L.node ((adapter.getD (.default root)).view root)
      ((adapter'.getD (.default root')).view root')) :
    Ending.Rel L (adapter.getD (.default root)) (adapter'.getD (.default root'))
      (traverse root step init own adapter logger)
      (traverse root' step' init own' adapter' logger') := by
  have hvisit := Walker.visit_agree h htree init ⟨[], own⟩ ⟨[], own'⟩ ⟨hpath, hown⟩
  rw [traverse_eq, traverse_eq]
  generalize (traverseWalker root step adapter logger).visit _ init ⟨[], own⟩ = ended at *
  generalize (traverseWalker root' step' adapter' logger').visit _ init ⟨[], own'⟩ = ended' at *
  -- One side ends as the other does, so two of the four cases are left.
  cases ended with
  | ok b t =>
    cases ended' with
    | ok b' t' => exact ⟨congrArg Except.ok hvisit.1, hvisit.2.1, hvisit.2.2⟩
    | error e' t' => exact hvisit.elim
  | error e t =>
    cases ended' with
    | ok b' t' => exact hvisit.elim
    | error e' t' => exact ⟨congrArg Except.error hvisit.1, hvisit.2.1, hvisit.2.2⟩

end TreeWalk
