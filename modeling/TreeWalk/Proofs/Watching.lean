import TreeWalk.Proofs.History

/-! # Watching walks that go alike

Steps that agree go on agreeing when they are watched, and what is seen of them goes
alike as well: the same calls, resumptions and closes at nodes that are alike, with
the same accumulators, results and answers.

## Key results

* `Moment.Alike` relates the moments of two steps that agree.
* `Step.Agree.watched` says that steps that agree do so when they are watched.
* `history_agree` relates the histories of two walks that go alike.
-/

namespace TreeWalk

variable {σ σ' ε α β β' : Type}

/-- Two moments are alike if the two steps do the same in them, at nodes and in contexts
    that are alike. -/
inductive Moment.Alike (L : Likeness σ σ') : Moment ε α → Moment ε α → Prop where
  | called {node node' : Value} {context context' : Context} (acc : Option α)
      (answer : Answer ε α) (hnode : L.node node node') (hcontext : L.context context context') :
      Alike L (.called node context.path acc answer) (.called node' context'.path acc answer)
  | resumed {node node' : Value} {context context' : Context} (children : Children α)
      (reply : Reply ε α) (hnode : L.node node node') (hcontext : L.context context context') :
      Alike L (.resumed node context.path children reply)
        (.resumed node' context'.path children reply)
  | closed {node node' : Value} {context context' : Context} (failure : Option ε)
      (hnode : L.node node node') (hcontext : L.context context context') :
      Alike L (.closed node context.path failure) (.closed node' context'.path failure)

namespace Likeness

/-- Watched steps are in states that are alike if the steps are, and what has been seen of
    them so far is related by `Q`. -/
def watched (L : Likeness σ σ') (Q : List (Moment ε α) → List (Moment ε α) → Prop) :
    Likeness (Watched σ ε α) (Watched σ' ε α) where
  state s s' := L.state s.own s'.own ∧ Q s.seen s'.seen
  context := L.context
  node := L.node

/-- Whether what has been seen stays related by `Q` as moments go by that are alike. -/
def Keeps (L : Likeness σ σ') (Q : List (Moment ε α) → List (Moment ε α) → Prop) : Prop :=
  ∀ ⦃seen seen' m m'⦄, Q seen seen' → Moment.Alike L m m' → Q (seen ++ [m]) (seen' ++ [m'])

end Likeness

/-! ## Steps -/

/-- Started steps that agree give the same answer. -/
theorem Started.Agree.answer_eq {L : Likeness σ σ'} {started : Started σ ε α}
    {started' : Started σ' ε α} (h : Started.Agree L started started') :
    Answer.ofStart (.ok started : Except ε _) = Answer.ofStart (.ok started') := by
  cases h <;> rfl

/-- Resumed steps that agree give the same reply. -/
theorem Resumed.Agree.reply_eq {L : Likeness σ σ'} {resumed : Resumed σ ε α}
    {resumed' : Resumed σ' ε α} (h : Resumed.Agree L resumed resumed') :
    Reply.ofResumption (.ok resumed : Except ε _) = Reply.ofResumption (.ok resumed') := by
  cases h <;> rfl

section

variable {L : Likeness σ σ'} {Q : List (Moment ε α) → List (Moment ε α) → Prop}
  (hQ : L.Keeps Q)

include hQ

/-- Watching parts of two steps that agree adds moments that are alike. -/
private theorem lift_watched {V : β → β' → Prop} {m : EStateM ε σ β} {m' : EStateM ε σ' β'}
    (h : Agree L.state V m m') {moment : Except ε β → Moment ε α}
    {moment' : Except ε β' → Moment ε α}
    (hok : ∀ b b', V b b' → (moment (.ok b)).Alike L (moment' (.ok b')))
    (herror : ∀ e, (moment (.error e)).Alike L (moment' (.error e))) :
    Agree (L.watched Q).state V (Watched.lift m moment) (Watched.lift m' moment') := by
  intro s s' ⟨hown, hseen⟩
  have hparts := h s.own s'.own hown
  -- The parts end alike, so two of the four cases are impossible.
  cases hr : m s.own with
  | ok b t =>
    cases hr' : m' s'.own with
    | ok b' t' =>
      rw [hr, hr'] at hparts
      rw [Watched.lift_ok hr, Watched.lift_ok hr']
      exact ⟨hparts.1, hparts.2, hQ hseen (hok b b' hparts.1)⟩
    | error e' t' => simp [hr, hr'] at hparts
  | error e t =>
    cases hr' : m' s'.own with
    | ok b' t' => simp [hr, hr'] at hparts
    | error e' t' =>
      rw [hr, hr'] at hparts
      rw [Watched.lift_error hr, Watched.lift_error hr']
      obtain ⟨rfl, hown'⟩ := hparts
      exact ⟨rfl, hown', hQ hseen (herror e)⟩

variable {node node' : Value} (hnode : L.node node node')

include hnode

/-- Resumed steps stay alike while their closings are recorded. -/
private theorem resumed_watched {resumed : Resumed σ ε α} {resumed' : Resumed σ' ε α}
    (h : Resumed.Agree L resumed resumed') :
    Resumed.Agree (L.watched Q) (resumed.watched node) (resumed'.watched node') := by
  cases h with
  | finished result => exact .finished result
  | suspended hclose =>
    refine .suspended fun context context' hcontext => ?_
    refine lift_watched hQ (hclose context context' hcontext) ?_ ?_
    · intro _ _ _
      exact .closed none hnode hcontext
    · intro e
      exact .closed (some e) hnode hcontext

/-- Started steps stay alike while their resumptions are recorded. -/
private theorem started_watched {started : Started σ ε α} {started' : Started σ' ε α}
    (h : Started.Agree L started started') :
    Started.Agree (L.watched Q) (started.watched node) (started'.watched node') := by
  cases h with
  | finished result => exact .finished result
  | suspended yielded hresume =>
    refine .suspended yielded fun children context context' hcontext => ?_
    refine Agree.bind (V := Resumed.Agree L) ?_ ?_
    · refine lift_watched hQ (hresume children context context' hcontext) ?_ ?_
      · intro resumed resumed' hresumed
        rw [hresumed.reply_eq]
        exact .resumed children _ hnode hcontext
      · intro e
        exact .resumed children (.failed e) hnode hcontext
    · intro resumed resumed' hresumed
      exact .pure (resumed_watched hQ hnode hresumed)

end

/-- Steps that agree do so when they are watched. -/
theorem Step.Agree.watched {L : Likeness σ σ'}
    {Q : List (Moment ε α) → List (Moment ε α) → Prop} (hQ : L.Keeps Q) {step : Step σ ε α}
    {step' : Step σ' ε α} (h : Step.Agree L step step') :
    Step.Agree (L.watched Q) step.watched step'.watched := by
  intro node node' acc context context' (hnode : L.node node node')
    (hcontext : L.context context context')
  rw [Step.start_watched, Step.start_watched]
  -- The call is recorded on both sides with answers that agree, and what is started stays alike.
  refine Agree.bind (V := Started.Agree L) ?_ ?_
  · refine lift_watched hQ (h node node' acc context context' hnode hcontext) ?_ ?_
    · intro started started' hstarted
      rw [hstarted.answer_eq]
      exact .called acc _ hnode hcontext
    · intro e
      exact .called acc (.failed e) hnode hcontext
  · intro started started' hstarted
    exact .pure (started_watched hQ hnode hstarted)

/-! ## Walks -/

/-- Two watched walks that go alike have histories related by `Q`; the walks themselves end
    with the same outcome, and leave their steps in states that are alike. -/
theorem history_agree {L : Likeness σ σ'} {Q : List (Moment ε α) → List (Moment ε α) → Prop}
    {step : Step σ ε α} {step' : Step σ' ε α} {root root' : Value} (init : Option α)
    {own : σ} {own' : σ'} {adapter adapter' : Option Adapter} {logger : Option (Logger σ)}
    {logger' : Option (Logger σ')}
    (h : Walker.Agree (L.watched Q)
      (traverseWalker root step.watched adapter (logger.map Logger.watched))
      (traverseWalker root' step'.watched adapter' (logger'.map Logger.watched)))
    (hpath : L.Path (adapter.getD (.default root)) (adapter'.getD (.default root')) [] [])
    (hown : L.state own own') (hseen : Q [] [])
    (htree : Tree.Alike L.node ((adapter.getD (.default root)).view root)
      ((adapter'.getD (.default root')).view root')) :
    Q (history root step init own adapter logger) (history root' step' init own' adapter' logger') ∧
      (traverse root step init own adapter logger).outcome =
        (traverse root' step' init own' adapter' logger').outcome ∧
      L.state (traverse root step init own adapter logger).own
        (traverse root' step' init own' adapter' logger').own := by
  have hstart : (L.watched Q).state ({ own } : Watched σ ε α) ({ own := own' } : Watched σ' ε α) :=
    ⟨hown, hseen⟩
  have hwatched := traverse_agree init h hpath hstart htree
  -- Watching changes nothing about either walk.
  obtain ⟨houtcome, -, howned⟩ := traverse_watched root step init own adapter logger
  obtain ⟨houtcome', -, howned'⟩ := traverse_watched root' step' init own' adapter' logger'
  refine ⟨hwatched.own.2, ?_, ?_⟩
  · rw [← houtcome, ← houtcome']
    exact hwatched.outcome
  · rw [← howned, ← howned']
    exact hwatched.own.1

end TreeWalk
