import TreeWalk.Text.Quoted

/-! # Failures of a walk

A walk fails because a step failed, because the engine found that a step broke
its contract, or because the fields of the root cannot be listed.  Failures carry
their cause; their wording is given once, by `message`. -/

namespace TreeWalk

/-- Where a failure happened: the kind of the node and its described path, either
    of them possibly unknown. -/
structure Place where
  kind : Option String := none
  location : String := ""
  deriving DecidableEq, Repr

/-- A message with the place it is about, as far as that is known. -/
def Place.annotate (place : Place) (text : String) : String :=
  match place.kind with
  | some "" | none => text
  | some kind =>
    text ++ " (node " ++ Quoted.text kind ++
      (if place.location.isEmpty then ")" else " at " ++ place.location ++ ")")

/-- What the engine itself finds wrong with a step. -/
inductive Breach where
  /-- A step suspended but gave no result after being resumed. -/
  | missingResult
  /-- A step suspended more than once for one node. -/
  | suspendedTwice
  deriving DecidableEq, Repr

/-- The wording of a breach, without its place. -/
def Breach.text : Breach → String
  | .missingResult => "Step function must return a value"
  | .suspendedTwice => "Step function may suspend only once per node"

/-- The wording of a breach at a place. -/
def Breach.message (breach : Breach) (place : Place) : String :=
  place.annotate breach.text

/-- Why a walk ended without a result; `ε` are the failures of the steps. -/
inductive Failure (ε : Type) where
  /-- A step failed; the engine passes its failure on unchanged. -/
  | step (error : ε)
  /-- A step broke its contract at the place given. -/
  | breach (breach : Breach) (place : Place)
  /-- The fields of a value of the type named cannot be listed. -/
  | noFields (typeName : String)

end TreeWalk
