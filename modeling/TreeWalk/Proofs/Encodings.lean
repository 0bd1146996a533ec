import TreeWalk.Proofs.FoldedWalks
import TreeWalk.Source.Expression
import TreeWalk.Value.Order

/-! # Two encodings of arithmetic

An arithmetic expression can be written as a document of dictionaries and as the node of a source
file.  Other adapters look at the two, they list other fields, and the operator of a source file is
a node of its own, which is visited as well.  A fold sees none of this: it reports the same values,
and its result or the cause of its failure is the same.

## Key results

* `Encoding` is what both encodings have in common for a fold.
* `Encoding.eval_eq` and `Encoding.dues_eq` say what an encoded expression evaluates to and what
  is due on the way.
* `traverse_fold_encodings` compares the two walks.
-/

namespace TreeWalk

/-! ## Expressions -/

/-- The kinds under which a document has a numeric literal. -/
inductive LiteralTag where
  | numericLiteral
  | literal
  deriving DecidableEq, Repr

def LiteralTag.text : LiteralTag → String
  | .numericLiteral => "NumericLiteral"
  | .literal => "Literal"

/-- The class of the operator's node in a source file. -/
def Operator.className : Operator → String
  | .plus => "Add"
  | .minus => "Sub"
  | .times => "Mult"
  | .over => "Div"

/-- The class of an operator tells it. -/
theorem Operator.ofForm?_className (op : Operator) : ofForm? op.className = some op := by
  cases op <;> rfl

/-- What comes of two operands, one of which may have no value: a number, or an arithmetic error,
    or nothing for want of an operand. -/
def Operator.combine (op : Operator) :
    Option Number → Option Number → Except (Option ArithmeticError) Number
  | some x, some y => (op.apply x y).mapError some
  | _, _ => .error none

/-- An expression built from numbers and operators; each number has the tag under which a
    document has it. -/
inductive Arithmetic where
  | literal (tag : LiteralTag) (number : Number)
  | binary (op : Operator) (left right : Arithmetic)

namespace Arithmetic

/-- The expression as a document of dictionaries. -/
def document : Arithmetic → Value
  | .literal tag number =>
    .dict [(.str "type", .str tag.text), (.str "value", .ofNumber number)]
  | .binary op left right =>
    .dict [(.str "type", .str "BinaryExpression"), (.str "left", left.document),
      (.str "operator", .str op.symbol), (.str "right", right.document)]

/-- The expression in a source file. -/
def expression : Arithmetic → Source.Expression
  | .literal _ number => .constant (.ofNumber number) false
  | .binary op left right => .binary left.expression op.className right.expression

/-- The expression as a node of a source file. -/
def source (e : Arithmetic) : Value :=
  e.expression.node .load

variable (selected : List Operator)

/-- The value of an expression, if it has one when only the selected operators are applied. -/
def value : Arithmetic → Option Number
  | .literal _ number => some number
  | .binary op left right =>
    if selected.contains op then (op.combine left.value right.value).toOption else none

/-- What comes of the operands of the selected operators, from the innermost outwards and from
    left to right. -/
def dues : Arithmetic → List (Except (Option ArithmeticError) Number)
  | .literal _ _ => []
  | .binary op left right => left.dues ++ right.dues ++
    if selected.contains op then [op.combine (left.value selected) (right.value selected)] else []

end Arithmetic

/-- What makes a fold fail: an arithmetic error, or that an operand has no value. -/
def Folding.Error.cause? : Folding.Error → Option (Option ArithmeticError)
  | .notNumeric _ _ => some none
  | .arithmetic error => some (some error)
  | .unsupported _ _ _ => none

/-- What the step makes of two operands, up to the wording of a failure. -/
theorem Folding.mapError_combine (op : Operator) (kind location : String) (x y : Option Number) :
    (combine op kind location (some (.single x)) (some (.single y))).mapError Error.cause? =
      (op.combine x y).mapError some := by
  match x, y with
  | none, _ => rfl
  | some _, none => rfl
  | some x, some y =>
    show ((op.apply x y).mapError Error.arithmetic).mapError Error.cause? =
      ((op.apply x y).mapError some).mapError some
    cases op.apply x y <;> rfl

/-- An operation has a value if its operands have one and the operator gives one of these. -/
theorem Operator.toOption_combine (op : Operator) (x y : Option Number) :
    (op.combine x y).toOption = match x, y with
      | some x, some y => (op.apply x y).toOption
      | _, _ => none := by
  match x, y with
  | none, _ => rfl
  | some _, none => rfl
  | some x, some y =>
    show ((op.apply x y).mapError some).toOption = (op.apply x y).toOption
    cases op.apply x y <;> rfl

/-- A binary expression is folded if its operator is selected. -/
theorem Folding.role_binary {kind : Option String} {node : Value} {op : Operator}
    (hliteral : isLiteralKind kind = false) (hbinary : isBinaryKind kind = true)
    (hop : operator? node = some op) (selected : List Operator) :
    role selected kind node = if selected.contains op then .binary op else .other := by
  rw [role, hliteral, hbinary, hop]
  rfl

/-! ## Encodings -/

/-- Expressions are encoded as nodes that an adapter shows with their operands for children; the
    operator may be a child between them. -/
structure Encoding (a : Adapter) (node : Arithmetic → Value) : Prop where
  isNode : ∀ e, a.isNode (node e) = true
  separateBelow : ∀ e, a.SeparateBelow (node e)
  view_literal : ∀ tag number, let value := node (.literal tag number)
    a.view value = .node value (a.kindOf value) [] ∧
      ∀ selected, Folding.role selected (a.kindOf value) value = .literal (some number)
  view_binary : ∀ op left right, let value := node (.binary op left right)
    (∀ selected, Folding.role selected (a.kindOf value) value =
      if selected.contains op then .binary op else .other) ∧
    ∃ between : Option Value, a.view value = .node value (a.kindOf value)
      ((⟨.str "left", none⟩, a.view (node left)) ::
        (between.toList.map fun leaf => (⟨.str "op", none⟩, .node leaf (a.kindOf leaf) [])) ++
        [(⟨.str "right", none⟩, a.view (node right))]) ∧
      ∀ leaf ∈ between, ∀ selected, Folding.role selected (a.kindOf leaf) leaf = .other

namespace Encoding

variable {a : Adapter} {node : Arithmetic → Value} (h : Encoding a node) (selected : List Operator)
include h

/-- An encoded expression evaluates to its value. -/
theorem eval_eq (e : Arithmetic) : Folding.eval selected (a.view (node e)) = e.value selected := by
  induction e with
  | literal tag number =>
    obtain ⟨hview, hrole⟩ := h.view_literal tag number
    rw [hview, Folding.eval, hrole]
    rfl
  | binary op left right ihl ihr =>
    obtain ⟨hrole, between, hview, -⟩ := h.view_binary op left right
    rw [hview, Folding.eval, hrole, Arithmetic.value]
    -- An operator that is not selected gives no value; otherwise both operands are evaluated.
    cases selected.contains op with
    | false => rfl
    | true =>
      rw [if_pos rfl, if_pos rfl, Operator.toOption_combine, ← ihl, ← ihr]
      cases between <;> rfl

/-- The operands that the step finds are the values of both sides. -/
theorem get?_results (between : Option Value) (left right : Arithmetic) :
    let children : List (Slot × Tree) := (⟨.str "left", none⟩, a.view (node left)) ::
        (between.toList.map fun leaf => (⟨.str "op", none⟩, .node leaf (a.kindOf leaf) [])) ++
        [(⟨.str "right", none⟩, a.view (node right))]
    (Folding.results selected children).get? "left" = some (.single (left.value selected)) ∧
      (Folding.results selected children).get? "right" = some (.single (right.value selected)) := by
  intro children
  rw [← h.eval_eq selected left, ← h.eval_eq selected right]
  cases between <;>
    simp [children, Folding.results, Children.ofVisits, Children.record, Children.get?,
      Value.sameKey_str, FieldResult.add, Value.isText]

/-- What is due when a walk leaves an encoded binary expression. -/
theorem report_binary (op : Operator) (left right : Arithmetic) (address : List Nat)
    (path : List PathEntry) :
    ([⟨address, path, node (.binary op left right)⟩].filterMap (Folding.report selected a)).map
        (Except.mapError Folding.Error.cause?) =
      (if selected.contains op then
        [op.combine (left.value selected) (right.value selected)] else []).map
          (Except.mapError some) := by
  obtain ⟨hrole, between, hview, -⟩ := h.view_binary op left right
  obtain ⟨hleft, hright⟩ := h.get?_results selected between left right
  rw [List.filterMap_cons, List.filterMap_nil, Folding.report, hrole, hview]
  cases selected.contains op with
  | false => rfl
  | true =>
    simp only [↓reduceIte, Tree.children, hleft, hright, List.map_cons, List.map_nil,
      Folding.mapError_combine]

/-- What is due at an encoded expression and below it. -/
theorem dues_eq (e : Arithmetic) (address : List Nat) (path : List PathEntry) :
    (((a.view (node e)).exits address path).filterMap (Folding.report selected a)).map
        (Except.mapError Folding.Error.cause?) =
      (e.dues selected).map (Except.mapError some) := by
  induction e generalizing address path with
  | literal tag number =>
    obtain ⟨hview, hrole⟩ := h.view_literal tag number
    rw [hview]
    simp [Tree.exits, Tree.exitsAll, Folding.report, hrole, Arithmetic.dues]
  | binary op left right ihl ihr =>
    obtain ⟨-, between, hview, hleaf⟩ := h.view_binary op left right
    rw [hview, Tree.exits, List.filterMap_append, List.map_append, h.report_binary,
      Arithmetic.dues, List.map_append, List.map_append]
    congr 1
    cases between with
    | none =>
      simp only [Option.toList_none, List.map_nil, List.cons_append, List.nil_append,
        Tree.exitsAll, List.filterMap_append, List.map_append, List.append_nil, ihl, ihr]
    | some leaf =>
      -- Nothing is due at the operator.
      have hsilent : ∀ address path, Folding.report selected a ⟨address, path, leaf⟩ = none := by
        intro address path
        simp only [Folding.report, hleaf leaf rfl]
      simp only [Option.toList_some, List.map_cons, List.map_nil, List.cons_append,
        List.nil_append, Tree.exitsAll, Tree.exits, List.filterMap_append, List.map_append,
        List.append_nil, List.filterMap_cons, hsilent, ihl, ihr]

end Encoding

/-! ## The two encodings -/

namespace Arithmetic

/-- The kind of an expression in a document. -/
theorem kindOf_document (e : Arithmetic) : Adapter.tagged.kindOf e.document =
    some (match e with
      | .literal tag _ => tag.text
      | .binary .. => "BinaryExpression") := by
  cases e <;> rfl

/-- Every expression is a node of its document. -/
theorem isNode_document (e : Arithmetic) : Adapter.tagged.isNode e.document = true := by
  rw [Adapter.isNode, kindOf_document]
  rfl

/-- The keys of the document of an expression are told apart. -/
theorem separateKeys_document : ∀ e : Arithmetic, e.document.SeparateKeys
  | .literal tag number => by
    cases number <;>
      simp [document, Value.SeparateKeys, Value.EveryRecord, Value.EveryRecordEntries,
        Value.sameKey_str, Value.ofNumber]
  | .binary op left right => by
    have hleft := separateKeys_document left
    have hright := separateKeys_document right
    unfold Value.SeparateKeys at hleft hright
    simp [document, Value.SeparateKeys, Value.EveryRecord, Value.EveryRecordEntries,
      Value.sameKey_str, hleft, hright]

/-- Dictionaries encode expressions. -/
theorem encoding_document : Encoding Adapter.tagged document where
  isNode := isNode_document
  separateBelow e := Adapter.separateBelow_of_separateKeys _ e.separateKeys_document
  view_literal := by
    intro tag number value
    have hkind : Adapter.tagged.kindOf value = some tag.text := rfl
    refine ⟨?_, ?_⟩
    · rw [Adapter.view_eq]
      cases number <;> rfl
    · intro selected
      rw [hkind]
      cases tag <;> cases number <;> rfl
  view_binary := by
    intro op left right value
    have hkind : Adapter.tagged.kindOf value = some "BinaryExpression" := rfl
    refine ⟨?_, none, ?_, fun leaf hleaf => by cases hleaf⟩
    · intro selected
      have hop : Folding.operator? value = some op := Operator.ofSymbol?_symbol op
      rw [hkind, Folding.role_binary (by decide) (by decide) hop]
    · -- Of the four fields only the operands are nodes.
      have hchildren : Adapter.tagged.children? value =
          some [(⟨.str "left", none⟩, left.document), (⟨.str "right", none⟩, right.document)] := by
        have htype : Adapter.tagged.held (.str "BinaryExpression") = [] := rfl
        have hoperator : Adapter.tagged.held (.str op.symbol) = [] := rfl
        have hfields : Adapter.tagged.fields? value =
            some [(.str "type", .str "BinaryExpression"), (.str "left", left.document),
              (.str "operator", .str op.symbol), (.str "right", right.document)] := rfl
        rw [Adapter.children?, hfields]
        simp [htype, hoperator, Adapter.held_of_isNode left.isNode_document,
          Adapter.held_of_isNode right.isNode_document]
      rw [Adapter.view_eq, hchildren]
      rfl

/-- Every expression is a node of its syntax tree. -/
theorem isNode_source (e : Arithmetic) : Adapter.source.isNode e.source = true := by
  cases e <;> rfl

/-- Nodes of source files encode expressions. -/
theorem encoding_source : Encoding Adapter.source source where
  isNode := isNode_source
  separateBelow e := Adapter.separateBelow_of_source rfl e.source
  view_literal := by
    intro tag number value
    refine ⟨?_, ?_⟩
    · rw [Adapter.view_eq]
      cases number <;> rfl
    · intro selected
      cases number <;> rfl
  view_binary := by
    intro op left right value
    refine ⟨?_, some (Source.bareNode op.className), ?_, ?_⟩
    · intro selected
      have hop : Folding.operator? value = some op := Operator.ofForm?_className op
      have hliteral : Folding.isLiteralKind (some "BinOp") = false := by decide
      exact Folding.role_binary hliteral (by decide) hop selected
    · -- The operator is a node too, between the operands.
      have hchildren : Adapter.source.children? value =
          some [(⟨.str "left", none⟩, left.source),
            (⟨.str "op", none⟩, Source.bareNode op.className),
            (⟨.str "right", none⟩, right.source)] := by
        have hop : Adapter.source.isNode (Source.bareNode op.className) = true := rfl
        have hfields : Adapter.source.fields? value =
            some [(.str "left", left.source), (.str "op", Source.bareNode op.className),
              (.str "right", right.source)] := rfl
        rw [Adapter.children?, hfields]
        simp [Adapter.held_of_isNode hop, Adapter.held_of_isNode left.isNode_source,
          Adapter.held_of_isNode right.isNode_source]
      have hleaf : Adapter.source.view (Source.bareNode op.className) =
          .node (Source.bareNode op.className) (some op.className) [] := by
        cases op <;> rfl
      rw [Adapter.view_eq, hchildren]
      simp only [List.map_cons, hleaf]
      rfl
    · -- The operator has no value of its own.
      intro leaf hleaf selected
      obtain rfl := Option.some.inj hleaf
      cases op <;> rfl

end Arithmetic

/-! ## The walks -/

namespace Folding

variable {dues : List (Except Error Number)} {spec : List (Except (Option ArithmeticError) Number)}

/-- Where a value is to be due, it is due. -/
theorem dues_of_values {values : List Number}
    (h : dues.map (Except.mapError Error.cause?) =
      (values.map Except.ok).map (Except.mapError some)) : dues = values.map .ok := by
  induction values generalizing dues with
  | nil => exact List.map_eq_nil_iff.mp h
  | cons value rest ih =>
    obtain ⟨d, dues, rfl, hd, hdues⟩ := List.map_eq_cons_iff.mp h
    rw [ih hdues]
    cases d with
    | error error => cases hd
    | ok other =>
      obtain rfl : other = value := Except.ok.inj hd
      rfl

/-- Where an error is to be due after some values, one of that cause is due. -/
theorem dues_of_error {values : List Number} {cause : Option ArithmeticError}
    (h : dues.map (Except.mapError Error.cause?) =
      (values.map Except.ok ++ Except.error cause :: spec).map (Except.mapError some)) :
    ∃ error rest, error.cause? = some cause ∧ dues = values.map .ok ++ .error error :: rest := by
  rw [List.map_append] at h
  obtain ⟨first, last, rfl, hfirst, hlast⟩ := List.map_eq_append_iff.mp h
  obtain ⟨d, rest, rfl, hd, -⟩ := List.map_eq_cons_iff.mp hlast
  rw [dues_of_values hfirst]
  cases d with
  | ok value => cases hd
  | error error => exact ⟨error, rest, Except.error.inj hd, rfl⟩

end Folding

/-- The walk over an encoded expression reports the values that are due at its selected operators,
    and has the value of the expression as result if all of them are; otherwise it fails with the
    first error. -/
theorem Encoding.traverse_fold_eq {a : Adapter} {node : Arithmetic → Value} (h : Encoding a node)
    {e : Arithmetic} (ha : Adapter.default (node e) = a) {selected : List Operator}
    {values : List Number} (init : Option Number) (reported : List Number) :
    let walked := traverse (node e) (Folding.step selected) init reported
    (e.dues selected = values.map .ok →
      walked = ⟨.ok (e.value selected), [], reported ++ values⟩) ∧
    ∀ cause rest, e.dues selected = values.map .ok ++ .error cause :: rest →
      ∃ error, error.cause? = some cause ∧
        walked = ⟨.error (.step error), [], reported ++ values⟩ := by
  intro walked
  -- What is due in either encoding is what is due of the expression.
  have hdefault : (none : Option Adapter).getD (.default (node e)) = a := ha
  have hwalked : walked = _ := traverse_fold_settled hdefault
    (Adapter.reads_of_isNode (h.isNode e)) (h.separateBelow e) selected init reported
  have hdues := h.dues_eq selected e [] []
  rw [Folding.valueOf, h.eval_eq] at hwalked
  refine ⟨?_, ?_⟩
  · intro hvalues
    rw [hvalues] at hdues
    rw [hwalked, Adapter.exits, Folding.dues_of_values hdues, Walker.settled,
      Folding.announce_values]
    rfl
  · intro cause rest hspec
    rw [hspec] at hdues
    obtain ⟨error, others, hcause, hsplit⟩ := Folding.dues_of_error hdues
    refine ⟨error, hcause, ?_⟩
    rw [hwalked, Adapter.exits, hsplit, Walker.settled, Folding.announce_error]
    rfl

/-- Both encodings of an expression fold alike.  If everything that is due at the selected operators
    is a value, both walks report these values and have the value of the expression as result;
    otherwise both report the values before the first error and fail with an error of the same
    cause: the same arithmetic error, or an operand without a value. -/
theorem traverse_fold_encodings (e : Arithmetic) (selected : List Operator) (init : Option Number)
    (reported : List Number) :
    let document := traverse e.document (Folding.step selected) init reported
    let source := traverse e.source (Folding.step selected) init reported
    ∃ values,
      (e.dues selected = values.map .ok ∧
        document = ⟨.ok (e.value selected), [], reported ++ values⟩ ∧
        source = ⟨.ok (e.value selected), [], reported ++ values⟩) ∨
      ∃ cause rest error error', e.dues selected = values.map .ok ++ .error cause :: rest ∧
        error.cause? = some cause ∧ error'.cause? = some cause ∧
        document = ⟨.error (.step error), [], reported ++ values⟩ ∧
        source = ⟨.error (.step error'), [], reported ++ values⟩ := by
  intro document source
  have hdocument : Adapter.default e.document = .tagged := by
    cases e <;> rfl
  have hsource : Adapter.default e.source = .source := by
    cases e <;> rfl
  -- Either all that is due are values or there is a first cause of failure.
  rcases Folding.announced_or_error some (e.dues selected) with
    ⟨values, hvalues⟩ | ⟨before, d, rest, cause, values, hsplit, hvalues, hd⟩
  · rw [List.filterMap_some] at hvalues
    exact ⟨values, .inl ⟨hvalues,
      (Arithmetic.encoding_document.traverse_fold_eq hdocument init reported).1 hvalues,
      (Arithmetic.encoding_source.traverse_fold_eq hsource init reported).1 hvalues⟩⟩
  · rw [List.filterMap_some] at hvalues
    rw [hvalues, Option.some.inj hd] at hsplit
    obtain ⟨error, hcause, hend⟩ :=
      (Arithmetic.encoding_document.traverse_fold_eq hdocument init reported).2 _ _ hsplit
    obtain ⟨error', hcause', hend'⟩ :=
      (Arithmetic.encoding_source.traverse_fold_eq hsource init reported).2 _ _ hsplit
    exact ⟨values, .inr ⟨cause, rest, error, error', hsplit, hcause, hcause', hend, hend'⟩⟩

end TreeWalk
