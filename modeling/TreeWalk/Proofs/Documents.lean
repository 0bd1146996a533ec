import TreeWalk.Document
import TreeWalk.Proofs.Names
import TreeWalk.Proofs.Run

/-! # What documents hold

A reader makes a dictionary of an object or a mapping, so that no key of what it gives stands
twice, and the tree of a source file has a module at its root.  The fields of the nodes of a
document have therefore names that a dictionary tells apart, through whatever adapter the
document was loaded.

## Key results

* `Readers.Lawful` is what is taken for granted of the readers.
* `Adapter.SeparateBelow` is the condition on the nodes that a walk reaches.
* `Document.of_load_eq_ok` and `Document.separateBelow_of_load` say what is known of a
  document that has been loaded.
-/

namespace TreeWalk

variable {α β ε : Type}

/-- A computation in two parts ends well only if both do. -/
theorem exists_of_bind_eq_ok {m : Except ε α} {f : α → Except ε β} {b : β}
    (h : (m >>= f) = .ok b) : ∃ a, m = .ok a ∧ f a = .ok b := by
  cases m with
  | error e => cases h
  | ok a => exact ⟨a, rfl, h⟩

/-- A result is not changed by what is made of errors. -/
theorem eq_ok_of_mapError {f : ε → β} {x : Except ε α} {a : α}
    (h : x.mapError f = .ok a) : x = .ok a := by
  cases x with
  | error e => cases h
  | ok b => exact congrArg _ (Except.ok.inj h)

/-- An error is not changed by what is made of results. -/
theorem eq_error_of_map {f : α → β} {x : Except ε α} {e : ε} (h : x.map f = .error e) :
    x = .error e := by
  cases x with
  | error e' => exact congrArg _ (Except.error.inj h)
  | ok a => cases h

namespace Value

/-- Whether a dictionary tells the keys of entries apart. -/
def Separate (entries : List (Value × Value)) : Prop :=
  (entries.map Prod.fst).Pairwise fun key later => key.sameKey later = false

end Value

/-- What is taken for granted of readers: the values of JSON and YAML texts hold dictionaries,
    whose keys are different, and the tree of a source file is a module with two lists. -/
structure Readers.Lawful (readers : Readers) : Prop where
  json : ∀ text root, readers.json text = .ok root → root.SeparateKeys
  yaml : ∀ text root, readers.yaml text = .ok root → root.SeparateKeys
  source : ∀ text root, readers.source text = .ok root → ∃ body ignores,
    root = Form.node "Module" [("body", .list body), ("type_ignores", .list ignores)]

/-! ## Nodes of documents -/

namespace Adapter

/-- A dictionary tells the field names apart of every node that a walk below `root`
    reaches. -/
def SeparateBelow (a : Adapter) (root : Value) : Prop :=
  ∀ path node fields, a.Reaches root path node → a.fields? node = some fields →
    fields.Pairwise fun field later => field.1.sameKey later.1 = false

/-- Keys that are told apart all over a document are told apart below its root. -/
theorem separateBelow_of_separateKeys (a : Adapter) {root : Value} (h : root.SeparateKeys) :
    a.SeparateBelow root :=
  fun _ _ _ hreach hfields => hreach.separateNames h hfields

/-- The fields of a node of a source file are those of its class, which have different
    names. -/
theorem separateBelow_of_source {a : Adapter} (h : a.family = .source) (root : Value) :
    a.SeparateBelow root := by
  intro path node fields _ hfields
  unfold fields? at hfields
  obtain ⟨hreads, hfields⟩ := Option.ite_none_right_eq_some.mp hfields
  have hnames : ∀ className entries,
      (a.arrange (.form className) entries Value.null).Pairwise fun field later =>
        field.1.sameKey later.1 = false := by
    intro className entries
    have hclass := Form.pairwise_arrange (R := fun name later => name.sameKey later = false)
      (fun s t hne => by rw [Value.sameKey_str]; exact beq_false_of_ne hne)
      className entries Value.null
    simp only [arrange, h]
    exact (List.pairwise_map.mp hclass).sublist List.filter_sublist
  -- An adapter of this family has fields for nodes of source files only.
  cases node with
  | record holder entries aside =>
    obtain rfl := Option.some.inj hfields
    cases holder with
    | form className => exact hnames className entries
    | _ => simp [reads, isNode, kindOf, h] at hreads
  | _ => simp [reads, isNode, kindOf, h] at hreads

/-- The tree of a source file is a node to its own family only: its fields are lists, so that
    none of them is a tag. -/
theorem family_eq_source_of_isNode {a : Adapter} {body ignores : List Value}
    (h : a.isNode (Form.node "Module" [("body", .list body), ("type_ignores", .list ignores)]) =
      true) : a.family = .source := by
  cases ha : a.family with
  | source => rfl
  | tagged tagField =>
    obtain ⟨kind, hkind⟩ := Option.isSome_iff_exists.mp h
    simp only [kindOf, ha] at hkind
    obtain ⟨tag, htag, htext⟩ := Option.bind_eq_some_iff.mp hkind
    -- A tag would be one of the two fields, and both of them are lists.
    have htags : tag = .list body ∨ tag = .list ignores := by
      simp only [Form.node, List.map_cons, List.map_nil, Value.lookup, Value.entry?] at htag
      by_cases hbody : ("body" == tagField) = true
      · simp only [Value.isText, hbody] at htag
        exact .inl (Option.some.inj htag).symm
      · by_cases hignores : ("type_ignores" == tagField) = true
        · simp only [Value.isText, hbody, hignores] at htag
          exact .inr (Option.some.inj htag).symm
        · simp [Value.isText, hbody, hignores] at htag
    rcases htags with rfl | rfl <;> cases htext

end Adapter

namespace Document

variable {readers : Readers} {find : String → Option FileEntry} {path tagField : String}
  {skip : List Value} {adapter : Option Adapter} {d : Document}

/-- The text of a document spells a value with separate keys, or the tree of a source
    file. -/
theorem rootOf_eq_ok (hreaders : readers.Lawful) {format : DocumentFormat} {text : List Char}
    {root : Value} (h : rootOf readers path format text = .ok root) : root.SeparateKeys ∨
      ∃ body ignores,
        root = Form.node "Module" [("body", .list body), ("type_ignores", .list ignores)] := by
  unfold rootOf at h
  cases format with
  | json => exact .inl (hreaders.json text root (eq_ok_of_mapError h))
  | yaml => exact .inl (hreaders.yaml text root (eq_ok_of_mapError h))
  | source => exact .inr (hreaders.source text root (eq_ok_of_mapError h))

/-- A document that has been loaded has a node for its root, which the text of a file
    spells. -/
theorem of_load_eq_ok (h : load readers find path tagField skip adapter = .ok d) :
    d.adapter.isNode d.root = true ∧ ∃ text, rootOf readers d.path d.format text = .ok d.root := by
  unfold load at h
  -- The conditions are met one after the other: the file, its format, its text, its value and the
  -- node.
  dsimp only at h
  split at h
  · cases h
  · obtain ⟨format, -, h⟩ := exists_of_bind_eq_ok h
    split at h
    · cases h
    · obtain ⟨text, -, h⟩ := exists_of_bind_eq_ok h
      obtain ⟨root, hroot, h⟩ := exists_of_bind_eq_ok h
      split at h
      · rename_i hnode
        obtain rfl := Except.ok.inj h
        exact ⟨hnode, _, hroot⟩
      · cases h

/-- The nodes of a document that has been loaded have separate field names, through whatever
    adapter it was loaded. -/
theorem separateBelow_of_load (hreaders : readers.Lawful)
    (h : load readers find path tagField skip adapter = .ok d) :
    d.adapter.SeparateBelow d.root := by
  obtain ⟨hnode, text, hroot⟩ := of_load_eq_ok h
  rcases rootOf_eq_ok hreaders hroot with hkeys | ⟨body, ignores, hmodule⟩
  · exact d.adapter.separateBelow_of_separateKeys hkeys
  · rw [hmodule] at hnode
    exact Adapter.separateBelow_of_source (Adapter.family_eq_source_of_isNode hnode) d.root

end Document

end TreeWalk
