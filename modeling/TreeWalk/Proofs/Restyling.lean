import TreeWalk.Proofs.Declarations
import TreeWalk.Proofs.Prune
import TreeWalk.Steps.Folding

/-! # Restyled documents

The named parts of a node can be held in a dictionary, in a read-only mapping, in an object with
attributes or in an object with declared fields.  To restyle a document is to move the parts of
its nodes from one of these to another, for each node as one likes.  Three questions are put to
a holder, each in its own way: what its tag is, which fields it has, and what is its part of
a given name.  Restyling changes none of the answers but for the style of the nodes in them.

An attribute of a class is found by a look-up but is no field, so it has no counterpart in a
dictionary.  The relation therefore names the parts that are going to be looked up, which must
not be attributes of this sort.

## Key results

* `Value.Restyled` relates a document to what it can be restyled to.
* `Value.Restyled.lookup` says what a look-up finds, `Value.Restyled.kindOf_eq` what the kind of
  a node is, `Adapter.counterparts_restyled` which children it has.
* `Value.Restyled.literal?_eq`, `Value.Restyled.operator?_eq` and
  `Value.Restyled.exists_declared` say what the steps read off a node.
-/

namespace TreeWalk

/-! ## Styles -/

/-- Whether a holder is one of the four in which the parts of a node can be held. -/
def Holder.isStyle : Holder → Bool
  | .dict | .mapping | .object | .declared => true
  | .results | .slots | .form _ | .foreign _ => false

/-- What has entries is true in every style. -/
theorem Holder.isTrue_of_isStyle {holder : Holder} (h : holder.isStyle = true) :
    holder.isTrue true = true := by
  cases holder <;> first | rfl | contradiction

/-- The names of the parts that arithmetic looks up in a node. -/
def Folding.partsRead : List String :=
  ["value", "operator", "op"]

/-- The names of the parts that collecting scopes looks up in a node. -/
def Scopes.partsRead : List String :=
  ["declarations", "id"]

namespace Value

variable {tagField : String} {seen : List String}

/-- Whether parts that a look-up finds besides the listed ones, such as attributes of a class,
    go unnoticed when only the names in `seen` are looked up. -/
def Unnoticed (seen : List String) (aside : List (Value × Value)) : Prop :=
  ∀ part ∈ aside, ∀ name ∈ seen, part.1.isText name = false

/-- One document is the other with nodes held in other styles, as far as the names in `seen`
    are looked up in them.  The parts of such a node keep their names, none of which is hidden,
    and their order; there are some, as there is at least a tag.  They may be restyled
    themselves, and so may the items of groups. -/
inductive Restyled (seen : List String) : Value → Value → Prop where
  | same (value : Value) : Restyled seen value value
  | group (shape : Grouping) {items items' : List Value}
      (hitems : List.Forall₂ (Restyled seen) items items') :
      Restyled seen (.group shape items) (.group shape items')
  | node {holder holder' : Holder} {entries entries' aside aside' : List (Value × Value)}
      (hstyle : holder.isStyle = true) (hstyle' : holder'.isStyle = true)
      (hsome : entries ≠ [])
      (hnames : entries.map Prod.fst = entries'.map Prod.fst)
      (hshown : ∀ name ∈ entries.map Prod.fst, Adapter.isHidden name = false)
      (hvalues : List.Forall₂ (Restyled seen) (entries.map Prod.snd) (entries'.map Prod.snd))
      (haside : Unnoticed seen aside) (haside' : Unnoticed seen aside') :
      Restyled seen (.record holder entries aside) (.record holder' entries' aside')

/-- Entries with the same names and with related values are related one by one. -/
private theorem forall₂_samePlace {R : Value → Value → Prop} :
    ∀ {entries entries' : List (Value × Value)},
      entries.map Prod.fst = entries'.map Prod.fst →
      List.Forall₂ R (entries.map Prod.snd) (entries'.map Prod.snd) →
      List.Forall₂ (Adapter.SamePlace R) entries entries'
  | [], [], _, _ => .nil
  | [], _ :: _, hnames, _ => by simp at hnames
  | _ :: _, [], hnames, _ => by simp at hnames
  | (name, value) :: rest, (name', value') :: rest', hnames, hvalues => by
    obtain ⟨hname, hnames⟩ := List.cons.inj hnames
    obtain ⟨hvalue, hvalues⟩ := List.forall₂_cons.mp hvalues
    exact .cons ⟨hname, hvalue⟩ (forall₂_samePlace hnames hvalues)

/-! ## Looking up a part -/

/-- Nothing is found under a name that is looked up, among attributes that go unnoticed. -/
theorem entry?_of_unnoticed {name : String} (hname : name ∈ seen) {aside : List (Value × Value)}
    (h : Unnoticed seen aside) : entry? name aside = none := by
  induction aside with
  | nil => rfl
  | cons part rest ih =>
    have hother : part.1.isText name = false := h part List.mem_cons_self name hname
    rw [ entry?, hother]
    exact ih fun part hpart => h part (List.mem_cons_of_mem _ hpart)

/-- Nothing is found besides the listed parts. -/
theorem lookup_of_unnoticed {name : String} (hname : name ∈ seen) (holder : Holder)
    (entries : List (Value × Value)) {aside : List (Value × Value)} (h : Unnoticed seen aside) :
    lookup name (.record holder entries aside) = entry? name entries := by
  rw [lookup, entry?_of_unnoticed hname h, ite_self]
  cases entry? name entries <;> rfl

/-- Entries that are related in order are related where they are found by name. -/
theorem rel_entry? {R : Value → Value → Prop} (name : String)
    {entries entries' : List (Value × Value)}
    (h : List.Forall₂ (Adapter.SamePlace R) entries entries') :
    Option.Rel R ( entry? name entries) ( entry? name entries') := by
  induction h with
  | nil => exact .none
  | @cons entry entry' rest rest' hfirst hrest ih =>
    obtain ⟨key, value⟩ := entry
    obtain ⟨key', value'⟩ := entry'
    obtain ⟨rfl, hvalue⟩ : key = key' ∧ R value value' := hfirst
    rw [ entry?, entry?]
    split
    · exact .some hvalue
    · exact ih

namespace Restyled

variable {value value' : Value}

/-- The same parts are found in a restyled node, restyled. -/
theorem lookup (h : Restyled seen value value') {name : String} (hname : name ∈ seen) :
    Option.Rel (Restyled seen) (value.lookup name) (value'.lookup name) := by
  cases h with
  | same =>
    cases value.lookup name with
    | none => exact .none
    | some part => exact .some (.same part)
  | group => exact .none
  | node _ _ _ hnames _ hvalues haside haside' =>
    rw [lookup_of_unnoticed hname _ _ haside, lookup_of_unnoticed hname _ _ haside']
    exact rel_entry? name (forall₂_samePlace hnames hvalues)

/-- A restyled value is the same text, if it is one. -/
theorem text?_eq (h : Restyled seen value value') : value.text? = value'.text? := by
  cases h <;> rfl

/-- A restyled node keeps its kind. -/
theorem kindOf_eq (h : Restyled seen value value') (htag : tagField ∈ seen) (skip : List Value) :
    (Adapter.tagged tagField skip).kindOf value = (Adapter.tagged tagField skip).kindOf value' := by
  have hfound := h.lookup htag
  rw [Adapter.kindOf_tagged, Adapter.kindOf_tagged]
  generalize value.lookup tagField = found at hfound ⊢
  generalize value'.lookup tagField = found' at hfound ⊢
  cases hfound with
  | none => rfl
  | some hpart => exact hpart.text?_eq

/-- A restyled value is a node if the value is. -/
theorem isNode_eq (h : Restyled seen value value') (htag : tagField ∈ seen) (skip : List Value) :
    (Adapter.tagged tagField skip).isNode value = (Adapter.tagged tagField skip).isNode value' :=
  congrArg Option.isSome (h.kindOf_eq htag skip)

/-- A restyled node has parts, so it is true in every style. -/
theorem isTrue_eq (h : Restyled seen value value') : value.isTrue = value'.isTrue := by
  cases h with
  | same => rfl
  | group shape hitems => cases hitems <;> rfl
  | @node holder holder' entries entries' _ _ hstyle hstyle' hsome hnames =>
    have hsome' : entries' ≠ [] := by
      intro hnone
      rw [hnone, List.map_nil, List.map_eq_nil_iff] at hnames
      exact hsome hnames
    rw [isTrue, isTrue, List.isEmpty_eq_false_iff.mpr hsome, List.isEmpty_eq_false_iff.mpr hsome',
      Bool.not_false, Holder.isTrue_of_isStyle hstyle, Holder.isTrue_of_isStyle hstyle']

/-! ## Children -/

/-- Lists that are related stay related with their positions. -/
private theorem forall₂_zipIdx {R : Value → Value → Prop} {items items' : List Value}
    (h : List.Forall₂ R items items') (i : Nat) :
    List.Forall₂ (fun entry entry' => R entry.1 entry'.1 ∧ entry.2 = entry'.2) (items.zipIdx i)
      (items'.zipIdx i) := by
  induction h generalizing i with
  | nil => exact .nil
  | cons hfirst _ ih => exact .cons ⟨hfirst, rfl⟩ (ih (i + 1))

/-- The nodes that a field holds are restyled in their places. -/
theorem forall₂_held (h : Restyled seen value value') (htag : tagField ∈ seen)
    (skip : List Value) :
    List.Forall₂ (Adapter.SamePlace (Restyled seen))
      ((Adapter.tagged tagField skip).held value)
      ((Adapter.tagged tagField skip).held value') := by
  have hnode := h.isNode_eq htag skip
  cases h with
  | same => exact List.forall₂_same.mpr fun child _ => ⟨rfl, .same child.2⟩
  | group shape hitems =>
    -- A list stays a list, so its items keep their positions.
    cases shape with
    | set =>
      simp only [Adapter.held, Adapter.isNode_group, Bool.false_eq_true, ↓reduceIte]
      exact .nil
    | list | tuple =>
      simp only [Adapter.held, Adapter.isNode_group, Bool.false_eq_true, ↓reduceIte]
      refine List.rel_filterMap ?_ (forall₂_zipIdx hitems 0)
      rintro ⟨item, i⟩ ⟨item', i'⟩ ⟨hitem, rfl⟩
      have hnode : (Adapter.tagged tagField skip).isNode item =
        (Adapter.tagged tagField skip).isNode item' := Restyled.isNode_eq hitem htag skip
      simp only [hnode]
      split
      · exact .some ⟨rfl, hitem⟩
      · exact .none
  | @node holder holder' entries entries' aside aside' hstyle hstyle' hsome hnames hshown hvalues
      haside haside' =>
    -- A record holds itself if it is a node, and otherwise nothing.
    by_cases hyes : (Adapter.tagged tagField skip).isNode (.record holder entries aside) = true
    · rw [Adapter.held_of_isNode hyes, Adapter.held_of_isNode (hnode.symm.trans hyes)]
      exact .cons ⟨rfl, .node hstyle hstyle' hsome hnames hshown hvalues haside haside'⟩ .nil
    · rw [Bool.not_eq_true] at hyes
      rw [Adapter.held_of_not_isNode hyes (by simp),
        Adapter.held_of_not_isNode (hnode.symm.trans hyes) (by simp)]
      exact .nil

/-! ## What steps read -/

/-- Arithmetic reads the same number off a restyled node. -/
theorem literal?_eq (h : Restyled seen value value') (hseen : Folding.partsRead ⊆ seen) :
    Folding.literal? value = Folding.literal? value' := by
  have hname : "value" ∈ seen := hseen (by decide)
  have hfound := h.lookup hname
  unfold Folding.literal?
  generalize value.lookup "value" = found at hfound ⊢
  generalize value'.lookup "value" = found' at hfound ⊢
  cases hfound with
  | none => rfl
  | some hpart => cases hpart <;> rfl

/-- The operator that an operator node stands for by its class, if it is one. -/
private def formOperator? : Option Value → Option Operator
  | some (.record (.form className) _ _) => Operator.ofForm? className
  | _ => none

/-- Nodes of source files are in none of the styles, so they are never restyled. -/
private theorem formOperator?_eq {found found' : Option Value}
    (h : Option.Rel (Restyled seen) found found') :
    formOperator? found = formOperator? found' := by
  cases h with
  | none => rfl
  | some hpart =>
    cases hpart with
    | same | group => rfl
    | @node holder holder' _ _ _ _ hstyle hstyle' =>
      cases holder <;> cases holder' <;> first | rfl | contradiction

/-- Arithmetic reads the same operator off a restyled node. -/
theorem operator?_eq (h : Restyled seen value value') (hseen : Folding.partsRead ⊆ seen) :
    Folding.operator? value = Folding.operator? value' := by
  have hop : "op" ∈ seen := hseen (by decide)
  have hoperator : "operator" ∈ seen := hseen (by decide)
  have hclass := formOperator?_eq (h.lookup hop)
  have hfound := h.lookup hoperator
  unfold Folding.operator?
  generalize value.lookup "operator" = found at hfound ⊢
  generalize value'.lookup "operator" = found' at hfound ⊢
  -- A symbol is read off itself, anything else leaves it to the operator node.
  cases hfound with
  | none => exact hclass
  | @some part _ hpart =>
    cases hpart with
    | same =>
      cases part with
      | str symbol => rfl
      | _ => exact hclass
    | group => exact hclass
    | node => exact hclass

/-- A restyled node is the same to a fold. -/
theorem role_eq (h : Restyled seen value value') (hseen : Folding.partsRead ⊆ seen)
    (selected : List Operator) (kind : Option String) :
    Folding.role selected kind value = Folding.role selected kind value' := by
  rw [Folding.role, Folding.role, h.literal?_eq hseen, h.operator?_eq hseen]

/-- A restyled node is named if the node was. -/
theorem declaresInside_eq (h : Restyled seen value value') (hseen : Scopes.partsRead ⊆ seen)
    (kind : String) :
    Scopes.declaresInside kind value = Scopes.declaresInside kind value' := by
  have hname : "id" ∈ seen := hseen (by decide)
  have hfound := h.lookup hname
  unfold Scopes.declaresInside
  generalize value.lookup "id" = found at hfound ⊢
  generalize value'.lookup "id" = found' at hfound ⊢
  cases hfound with
  | none => rfl
  | some hpart => rw [Option.map_some, Option.map_some, hpart.isTrue_eq]

/-- A restyled declaration holds declarators if the declaration does. -/
theorem holdsDeclarators_eq (h : Restyled seen value value') (hseen : Scopes.partsRead ⊆ seen) :
    value.holdsDeclarators = value'.holdsDeclarators := by
  have hname : "declarations" ∈ seen := hseen (by decide)
  have hfound := h.lookup hname
  unfold holdsDeclarators
  generalize value.lookup "declarations" = found at hfound ⊢
  generalize value'.lookup "declarations" = found' at hfound ⊢
  cases hfound with
  | none => rfl
  | some hpart =>
    cases hpart with
    | same | node => rfl
    | group shape => cases shape <;> rfl

/-- The declarators of a restyled declaration are its declarators, restyled. -/
theorem forall₂_declarators (h : Restyled seen value value') (hseen : Scopes.partsRead ⊆ seen) :
    List.Forall₂ (Restyled seen) value.declarators value'.declarators := by
  have hname : "declarations" ∈ seen := hseen (by decide)
  have hfound := h.lookup hname
  -- The field may be missing on both sides, or hold a part and the restyled part.
  unfold declarators
  generalize value.lookup "declarations" = found at hfound ⊢
  generalize value'.lookup "declarations" = found' at hfound ⊢
  cases hfound with
  | none => exact .nil
  | some hpart =>
    cases hpart with
    | same => exact List.forall₂_same.mpr fun _ _ => .same _
    | group _ hitems => exact hitems
    | node => exact .nil

/-- A restyled node declares what it did, restyled. -/
theorem exists_declared (h : Restyled seen value value') (hseen : Scopes.partsRead ⊆ seen)
    {kind : String}
    (hlist : kind = "VariableDeclaration" → value.holdsDeclarators = true) :
    ∃ declared declared', Scopes.declared kind value = .ok declared ∧
      Scopes.declared kind value' = .ok declared' ∧
      List.Forall₂ (Restyled seen) declared declared' := by
  have hlist' : kind = "VariableDeclaration" → value'.holdsDeclarators = true :=
    fun hkind => (h.holdsDeclarators_eq hseen).symm.trans (hlist hkind)
  refine ⟨_, _, Scopes.declared_eq_ok hlist, Scopes.declared_eq_ok hlist', ?_⟩
  refine List.rel_append ?_ ?_
  · split
    · exact .cons h .nil
    · exact .nil
  · split
    · exact h.forall₂_declarators hseen
    · exact .nil

end Restyled

end Value

namespace Adapter

/-- Every style shows parts whose names are not hidden as fields. -/
theorem shows_of_isStyle {holder : Holder} (hstyle : holder.isStyle = true) {name : Value}
    (hname : isHidden name = false) : shows name holder = true := by
  cases holder <;> simp_all [Holder.isStyle, shows]

/-- The children of a restyled node are its children, restyled. -/
theorem counterparts_restyled {tagField : String} {seen : List String} (htag : tagField ∈ seen)
    (skip : List Value) :
    Counterparts (tagged tagField skip) (tagged tagField skip) (Value.Restyled seen) where
  kindOf_eq h := h.kindOf_eq htag skip
  exists_children := by
    intro value value' h
    cases h with
    | same =>
      have hsome : (tagged tagField skip).children? value ≠ none := by
        rw [Ne, children?_eq_none_iff]
        exact Bool.noConfusion
      obtain ⟨children, hchildren⟩ := Option.ne_none_iff_exists'.mp hsome
      exact ⟨children, children, hchildren, hchildren,
        List.forall₂_same.mpr fun child _ => ⟨rfl, .same child.2⟩⟩
    | group => exact ⟨[], [], rfl, rfl, .nil⟩
    | @node _ _ entries _ _ _ hstyle hstyle' _ hnames hshown hvalues =>
      refine ⟨_, _, children?_record _ _ _ _ _, children?_record _ _ _ _ _, ?_⟩
      -- No field of the record is hidden, so all are shown on both sides but those skipped.
      have hfields : ∀ entry ∈ entries, isHidden entry.1 = false :=
        fun _ hentry => hshown _ (List.mem_map_of_mem hentry)
      have hentries := (List.forall₂_and_left _ _).mpr
        ⟨hfields, Value.forall₂_samePlace hnames hvalues⟩
      refine List.rel_flatMap hentries ?_
      rintro ⟨name, part⟩ ⟨name', part'⟩ ⟨hname, rfl, hpart⟩
      simp only [shows_of_isStyle hstyle hname, shows_of_isStyle hstyle' hname, Bool.true_and]
      split
      · refine List.rel_map ?_ (hpart.forall₂_held htag [])
        rintro child child' ⟨hindex, hchild⟩
        exact ⟨congrArg (Slot.mk name) hindex, hchild⟩
      · exact .nil

end Adapter

end TreeWalk
