import TreeWalk.Walk

/-! # Walks with a log

A step need not know that its walk is logged: `Step.logged` lets any step run
beside a list of log lines that it never touches, and `traverseLogged` walks with
a logger that appends to that list.

## Key results

* `Logged.lift_ok` and `Logged.lift_error`: the lines are left alone by the
  step. -/

namespace TreeWalk

variable {σ ε α : Type}

/-- The state of a step and the lines logged so far. -/
structure Logged (σ : Type) where
  own : σ
  lines : List String := []

/-- Runs a computation that knows nothing of the log. -/
def Logged.lift (m : EStateM ε σ β) : EStateM ε (Logged σ) β := fun s =>
  match m s.own with
  | .ok result own => .ok result { s with own }
  | .error error own => .error error { s with own }

theorem Logged.lift_ok {m : EStateM ε σ β} {s : Logged σ} {b : β} {own : σ}
    (h : m s.own = .ok b own) : Logged.lift m s = .ok b { s with own } := by
  simp [Logged.lift, h]

theorem Logged.lift_error {m : EStateM ε σ β} {s : Logged σ} {e : ε} {own : σ}
    (h : m s.own = .error e own) : Logged.lift m s = .error e { s with own } := by
  simp [Logged.lift, h]

namespace Resumed

def logged : Resumed σ ε α → Resumed (Logged σ) ε α
  | .finished result => .finished result
  | .suspended close => .suspended fun context => Logged.lift (close context)

end Resumed

namespace Started

def logged : Started σ ε α → Started (Logged σ) ε α
  | .finished result => .finished result
  | .suspended yielded resume => .suspended yielded fun children context =>
    return (← Logged.lift (resume children context)).logged

end Started

namespace Outcome

def logged : Outcome σ ε α → Outcome (Logged σ) ε α
  | .returned result => .returned result
  | .routine start => .routine do return (← Logged.lift start).logged

end Outcome

/-- The step beside a log that it never touches. -/
def Step.logged (step : Step σ ε α) : Step (Logged σ) ε α := fun node acc context =>
  return (← Logged.lift (step node acc context)).logged

/-- Appends its lines to the log. -/
def Logger.appending (verbosity : VerbositySetting) : Logger (Logged σ) where
  verbosity := verbosity
  emit := fun line s => { s with lines := s.lines ++ [line] }

/-- Walks as `traverse` does, with a logger of the given verbosity if one is
    given, and gathers the lines it logs. -/
def traverseLogged (root : Value) (step : Step σ ε α) (init : Option α) (own : σ)
    (adapter : Option Adapter := none) (verbosity : Option VerbositySetting := none) :
    Ending (Logged σ) ε α :=
  traverse root step.logged init { own } adapter (verbosity.map Logger.appending)

end TreeWalk
