import TreeWalk.Proofs.View

/-! # Distinct names

The keys of a dictionary are distinct, and so are the attributes of an object.  A
value in which that is so at every depth shows fields with distinct names to every
adapter, and no two children of a node hang at the same place.

## Key results

* `Value.DistinctKeys` is the condition on a document, `Value.SeparateKeys` the same
  with keys compared as a dictionary compares them.
* `Adapter.Reaches.everyRecord` carries what holds of every record to whatever a walk
  reaches, `Adapter.Reaches.distinctNames` the distinctness of names.
* `Adapter.nodup_slots` says that the places of children are distinct,
  `Adapter.Reaches.unique` that a path leads to one value only.
-/

namespace TreeWalk

variable {α : Type}

/-- The entry for a slot tells the slot. -/
theorem Slot.entry_inj {slot slot' : Slot} {parent : Value}
    (h : slot.entry parent = slot'.entry parent) : slot = slot' := by
  obtain ⟨prop, index⟩ := slot
  obtain ⟨prop', index'⟩ := slot'
  simp only [Slot.entry, PathEntry.mk.injEq, true_and] at h
  obtain ⟨rfl, hindex⟩ := h
  rw [Option.map_inj_right fun i j hij => Int.ofNat.inj hij] at hindex
  rw [hindex]

/-! ## Distinct keys -/

namespace Value

/-- A key with a text is this text. -/
theorem eq_str_of_isText {key : Value} {text : String} (h : key.isText text = true) :
    key = .str text := by
  cases key with
  | str s =>
    rw [isText, beq_iff_eq] at h
    rw [h]
  | _ => cases h

mutual

/-- Whether the keys of every record in a value are distinct, however deep it lies,
    as those of dictionaries and objects are. -/
def DistinctKeys : Value → Prop
  | .group _ items => DistinctKeysItems items
  | .record _ entries _ => (entries.map Prod.fst).Nodup ∧ DistinctKeysEntries entries
  | _ => True

def DistinctKeysItems : List Value → Prop
  | [] => True
  | item :: rest => item.DistinctKeys ∧ DistinctKeysItems rest

def DistinctKeysEntries : List (Value × Value) → Prop
  | [] => True
  | (_, value) :: rest => value.DistinctKeys ∧ DistinctKeysEntries rest

end

mutual

/-- Whether `P` holds of the entries of every record in a value, however deep it lies. -/
def EveryRecord (P : List (Value × Value) → Prop) : Value → Prop
  | .group _ items => EveryRecordItems P items
  | .record _ entries _ => P entries ∧ EveryRecordEntries P entries
  | _ => True

def EveryRecordItems (P : List (Value × Value) → Prop) : List Value → Prop
  | [] => True
  | item :: rest => item.EveryRecord P ∧ EveryRecordItems P rest

def EveryRecordEntries (P : List (Value × Value) → Prop) : List (Value × Value) → Prop
  | [] => True
  | (_, value) :: rest => value.EveryRecord P ∧ EveryRecordEntries P rest

end

variable {P Q : List (Value × Value) → Prop}

/-- What holds of every record in a list holds of every record in one of its items. -/
theorem EveryRecord.item {items : List Value} {item : Value} (h : EveryRecordItems P items)
    (hmem : item ∈ items) : item.EveryRecord P := by
  induction items with
  | nil => cases hmem
  | cons first rest ih =>
    rcases List.mem_cons.mp hmem with rfl | hmem
    · exact h.1
    · exact ih h.2 hmem

/-- What holds of every record in a dictionary holds of every record in one of its values. -/
theorem EveryRecord.entry {entries : List (Value × Value)} {key value : Value}
    (h : EveryRecordEntries P entries) (hmem : (key, value) ∈ entries) :
    value.EveryRecord P := by
  induction entries with
  | nil => cases hmem
  | cons first rest ih =>
    rcases List.mem_cons.mp hmem with rfl | hmem
    · exact h.1
    · exact ih h.2 hmem

mutual

/-- What holds of every record may be weakened. -/
theorem EveryRecord.imp (hPQ : ∀ entries, P entries → Q entries) :
    ∀ value : Value, value.EveryRecord P → value.EveryRecord Q
  | .group _ items, h => EveryRecordItems.imp hPQ items h
  | .record _ entries _, h => ⟨hPQ entries h.1, EveryRecordEntries.imp hPQ entries h.2⟩
  | .null, _ | .bool _, _ | .int _, _ | .float _, _ | .str _, _ | .bytes _, _ | .date _, _ =>
    trivial

/-- So it is with the items of a list. -/
theorem EveryRecordItems.imp (hPQ : ∀ entries, P entries → Q entries) :
    ∀ items : List Value, EveryRecordItems P items → EveryRecordItems Q items
  | [], _ => trivial
  | item :: rest, h => ⟨EveryRecord.imp hPQ item h.1, EveryRecordItems.imp hPQ rest h.2⟩

/-- So it is with the entries of a dictionary. -/
theorem EveryRecordEntries.imp (hPQ : ∀ entries, P entries → Q entries) :
    ∀ entries : List (Value × Value), EveryRecordEntries P entries → EveryRecordEntries Q entries
  | [], _ => trivial
  | (_, value) :: rest, h =>
    ⟨EveryRecord.imp hPQ value h.1, EveryRecordEntries.imp hPQ rest h.2⟩

end

mutual

/-- Distinct keys are a condition on every record. -/
theorem distinctKeys_iff : ∀ value : Value,
    value.DistinctKeys ↔ value.EveryRecord fun entries => (entries.map Prod.fst).Nodup
  | .group _ items => distinctKeysItems_iff items
  | .record _ entries _ => and_congr Iff.rfl (distinctKeysEntries_iff entries)
  | .null | .bool _ | .int _ | .float _ | .str _ | .bytes _ | .date _ => Iff.rfl

/-- So it is with the items of a list. -/
theorem distinctKeysItems_iff : ∀ items : List Value, DistinctKeysItems items ↔
    EveryRecordItems (fun entries => (entries.map Prod.fst).Nodup) items
  | [] => Iff.rfl
  | item :: rest => and_congr (distinctKeys_iff item) (distinctKeysItems_iff rest)

/-- So it is with the entries of a dictionary. -/
theorem distinctKeysEntries_iff : ∀ entries : List (Value × Value),
    DistinctKeysEntries entries ↔
      EveryRecordEntries (fun entries => (entries.map Prod.fst).Nodup) entries
  | [] => Iff.rfl
  | (_, value) :: rest => and_congr (distinctKeys_iff value) (distinctKeysEntries_iff rest)

end

/-- If keys are distinct, an entry is what a look-up of its key finds. -/
theorem entry?_of_mem {name : String} {value : Value} {entries : List (Value × Value)}
    (hkeys : (entries.map Prod.fst).Nodup) (hmem : (.str name, value) ∈ entries) :
    entry? name entries = some value := by
  induction entries with
  | nil => cases hmem
  | cons first rest ih =>
    obtain ⟨key, held⟩ := first
    obtain ⟨hfresh, hrest⟩ := List.nodup_cons.mp hkeys
    unfold entry?
    rcases List.mem_cons.mp hmem with heq | hmem
    · obtain ⟨rfl, rfl⟩ := Prod.mk.inj heq
      simp [isText]
    · -- The first key is another one, since this one comes later.
      have hother : key.isText name = false := by
        apply Bool.eq_false_iff.mpr
        intro htext
        rw [eq_str_of_isText htext] at hfresh
        exact hfresh (List.mem_map.mpr ⟨(.str name, value), hmem, rfl⟩)
      simp only [hother, Bool.false_eq_true, ↓reduceIte]
      exact ih hrest hmem

/-- Whether no two keys of a record in a value are one key of a dictionary, however
    deep the record lies. -/
def SeparateKeys (value : Value) : Prop :=
  value.EveryRecord fun entries =>
    (entries.map Prod.fst).Pairwise fun key later => key.sameKey later = false

/-- Keys that a dictionary tells apart are distinct. -/
theorem SeparateKeys.distinctKeys {value : Value} (h : value.SeparateKeys) :
    value.DistinctKeys := by
  refine (distinctKeys_iff value).mpr (EveryRecord.imp ?_ value h)
  intro entries hentries
  refine List.Pairwise.imp ?_ hentries
  intro key later hapart heq
  rw [heq, sameKey_self] at hapart
  cases hapart

end Value

/-! ## The order of fields -/

/-- The fields of a class have distinct names. -/
theorem Form.nodup_fieldsOf (className : String) :
    ((Form.fieldsOf className).map Form.Field.name).Nodup := by
  unfold Form.fieldsOf
  split <;> decide

/-- The fields that a class puts in order have different texts for names, whatever the
    attributes are. -/
theorem Form.pairwise_arrange {R : Value → Value → Prop}
    (hR : ∀ s t : String, s ≠ t → R (.str s) (.str t)) (className : String)
    (attributes : List (Value × α)) (unset : α) :
    ((Form.arrange className attributes unset).map Prod.fst).Pairwise R := by
  -- The fields of a class have different names; an arrangement leaves some of them out.
  have hnames : ((Form.fieldsOf className).map fun field => Value.str field.name).Pairwise R := by
    refine List.pairwise_map.mpr ((List.pairwise_map.mp (Form.nodup_fieldsOf className)).imp ?_)
    intro field later hne
    exact hR field.name later.name hne
  refine hnames.sublist ?_
  unfold Form.arrange
  induction Form.fieldsOf className with
  | nil => exact List.Sublist.refl _
  | cons field rest ih =>
    rw [List.filterMap_cons, List.map_cons]
    cases attributes.find? fun entry => entry.1.isText field.name with
    | some entry => exact ih.cons_cons _
    | none =>
      by_cases h : field.isOptional = true
      · simp only [h, ↓reduceIte]
        exact ih.cons_cons _
      · simp only [h, Bool.false_eq_true, ↓reduceIte]
        exact ih.cons _

/-- Whatever a form is read with was an attribute of it, or stands for one that is not set. -/
theorem Form.mem_arrange {className : String} {attributes : List (Value × α)} {unset : α}
    {name : Value} {value : α} (h : (name, value) ∈ Form.arrange className attributes unset) :
    value = unset ∨ ∃ key, (key, value) ∈ attributes := by
  unfold Form.arrange at h
  obtain ⟨field, -, hfield⟩ := List.mem_filterMap.mp h
  cases hfind : attributes.find? fun entry => entry.1.isText field.name with
  | some entry =>
    simp only [hfind, Option.some.injEq, Prod.mk.injEq] at hfield
    obtain ⟨-, rfl⟩ := hfield
    exact .inr ⟨entry.1, List.mem_of_find?_eq_some hfind⟩
  | none =>
    simp only [hfind, Option.ite_none_right_eq_some, Option.some.injEq, Prod.mk.injEq] at hfield
    exact .inl hfield.2.2.symm

namespace Adapter

/-- The names of the fields of a record stand in a relation that its keys stand in, if
    different texts do. -/
theorem pairwise_arrange {R : Value → Value → Prop}
    (hR : ∀ s t : String, s ≠ t → R (.str s) (.str t)) (a : Adapter) (holder : Holder)
    {entries : List (Value × α)} (unset : α) (h : (entries.map Prod.fst).Pairwise R) :
    ((a.arrange holder entries unset).map Prod.fst).Pairwise R := by
  have hsub : ∀ (p : Value × α → Bool) {l : List (Value × α)}, (l.map Prod.fst).Pairwise R →
      ((l.filter p).map Prod.fst).Pairwise R :=
    fun p l hl => hl.sublist (List.filter_sublist.map Prod.fst)
  unfold arrange
  -- Skipping fields keeps the names that are left apart, so it remains to look at the order.
  refine hsub _ ?_
  cases holder with
  | dict | mapping | results | declared => exact h
  | object => exact hsub _ h
  | slots | foreign => exact List.Pairwise.nil
  | form className =>
    cases a.family with
    | tagged tagField => exact hsub _ h
    | source => exact Form.pairwise_arrange hR className entries unset

/-- Whatever is read of a record was an entry of it, or stands for one that is not set. -/
theorem mem_arrange {a : Adapter} {holder : Holder} {entries : List (Value × α)} {unset : α}
    {name : Value} {value : α} (h : (name, value) ∈ a.arrange holder entries unset) :
    value = unset ∨ ∃ key, (key, value) ∈ entries := by
  unfold arrange at h
  have hall := List.mem_of_mem_filter h
  -- Only the fields of a form are arranged anew; other records are read entry by entry.
  cases holder with
  | dict | mapping | results | declared => exact .inr ⟨name, hall⟩
  | object => exact .inr ⟨name, List.mem_of_mem_filter hall⟩
  | slots | foreign => cases hall
  | form className =>
    cases hfamily : a.family with
    | tagged tagField =>
      simp only [hfamily] at hall
      exact .inr ⟨name, List.mem_of_mem_filter hall⟩
    | source =>
      simp only [hfamily] at hall
      exact Form.mem_arrange hall

/-! ## From keys to names -/

/-- The fields of a value have distinct names. -/
def DistinctNames (a : Adapter) (node : Value) : Prop :=
  ∀ fields, a.fields? node = some fields → (fields.map Prod.fst).Nodup

variable {P : List (Value × Value) → Prop}

/-- What holds of every record in a value holds of those in its fields. -/
theorem everyRecord_of_mem_fields {a : Adapter} {node name value : Value}
    {fields : List (Value × Value)} (h : node.EveryRecord P)
    (hfields : a.fields? node = some fields) (hfield : (name, value) ∈ fields) :
    value.EveryRecord P := by
  unfold fields? at hfields
  obtain ⟨-, hfields⟩ := Option.ite_none_right_eq_some.mp hfields
  cases node with
  | record holder entries aside =>
    obtain rfl := Option.some.inj hfields
    rcases mem_arrange hfield with rfl | ⟨key, hentry⟩
    · -- An optional field that is not set holds `null`.
      trivial
    · exact .entry h.2 hentry
  | _ =>
    obtain rfl := Option.some.inj hfields
    cases hfield

/-- What holds of every record in a node holds of every record in its children. -/
theorem IsChild.everyRecord {a : Adapter} {node child : Value} {slot : Slot}
    (hchild : a.IsChild node slot child) (h : node.EveryRecord P) : child.EveryRecord P := by
  obtain ⟨-, fields, value, hfields, hfield, hplace⟩ := hchild
  have hvalue := everyRecord_of_mem_fields h hfields hfield
  cases hindex : slot.index with
  | none =>
    simp only [hindex] at hplace
    rwa [hplace] at hvalue
  | some i =>
    simp only [hindex] at hplace
    obtain ⟨shape, items, rfl, -, hitem⟩ := hplace
    exact .item hvalue (List.mem_of_getElem? hitem)

/-- What holds of every record in the root holds of every record in a node that the walk reaches. -/
theorem Reaches.everyRecord {a : Adapter} {root node : Value} {path : List PathEntry}
    (hreach : a.Reaches root path node) (h : root.EveryRecord P) : node.EveryRecord P := by
  induction hreach with
  | root => exact h
  | child _ hchild ih => exact hchild.everyRecord ih

/-- The field names of whatever a walk reaches stand in a relation that the keys of every
    record stand in, if different texts do. -/
theorem Reaches.pairwise_names {R : Value → Value → Prop}
    (hR : ∀ s t : String, s ≠ t → R (.str s) (.str t)) {a : Adapter} {root node : Value}
    {path : List PathEntry} (hreach : a.Reaches root path node)
    (h : root.EveryRecord fun entries => (entries.map Prod.fst).Pairwise R)
    {fields : List (Value × Value)} (hfields : a.fields? node = some fields) :
    (fields.map Prod.fst).Pairwise R := by
  have hnode := hreach.everyRecord h
  unfold fields? at hfields
  obtain ⟨-, hfields⟩ := Option.ite_none_right_eq_some.mp hfields
  cases node with
  | record holder entries aside =>
    obtain rfl := Option.some.inj hfields
    exact pairwise_arrange hR a holder .null hnode.1
  | _ =>
    obtain rfl := Option.some.inj hfields
    exact List.Pairwise.nil

/-- Whatever a walk reaches below a value with distinct keys has distinct field
    names. -/
theorem Reaches.distinctNames {a : Adapter} {root node : Value} {path : List PathEntry}
    (hreach : a.Reaches root path node) (h : root.DistinctKeys) : a.DistinctNames node := by
  intro fields hfields
  refine hreach.pairwise_names ?_ ((Value.distinctKeys_iff root).mp h) hfields
  intro s t hne heq
  exact hne (Value.str.inj heq)

/-- Whatever a walk reaches below a value with separate keys has separate field
    names. -/
theorem Reaches.separateNames {a : Adapter} {root node : Value} {path : List PathEntry}
    (hreach : a.Reaches root path node) (h : root.SeparateKeys) {fields : List (Value × Value)}
    (hfields : a.fields? node = some fields) :
    fields.Pairwise fun field later => field.1.sameKey later.1 = false := by
  refine List.pairwise_map.mp (hreach.pairwise_names ?_ h hfields)
  intro s t hne
  rw [Value.sameKey_str]
  exact beq_false_of_ne hne

/-! ## Places of children -/

/-- The children of a value with distinct field names have distinct places. -/
theorem nodup_slots {a : Adapter} {node : Value} {children : List (Slot × Value)}
    (h : a.children? node = some children) (hnames : a.DistinctNames node) :
    (children.map Prod.fst).Nodup := by
  unfold children? at h
  obtain ⟨fields, hfields, rfl⟩ := Option.map_eq_some_iff.mp h
  have hdistinct := hnames fields hfields
  rw [List.map_flatMap, List.nodup_flatMap]
  constructor
  · -- Within one field the names agree and the positions differ.
    intro field _
    rw [List.map_map]
    have hslots : (Prod.fst ∘ fun child : Option Nat × Value =>
        ((⟨field.1, child.1⟩ : Slot), child.2)) =
        (fun index => (⟨field.1, index⟩ : Slot)) ∘ Prod.fst := rfl
    rw [hslots, ← List.map_map]
    refine (nodup_held a field.2).map ?_
    intro index index' heq
    exact (Slot.mk.inj heq).2
  · -- Between two fields the names differ.
    refine (List.pairwise_map.mp hdistinct).imp ?_
    intro field field' hne slot hslot hslot'
    simp only [List.map_map, List.mem_map] at hslot hslot'
    obtain ⟨child, -, rfl⟩ := hslot
    obtain ⟨child', -, heq⟩ := hslot'
    exact hne (Slot.mk.inj heq).1.symm

/-! ## Paths lead to one value -/

/-- A value has one child at a place if its field names are distinct. -/
theorem IsChild.unique {a : Adapter} {node child child' : Value} {slot : Slot}
    (hchild : a.IsChild node slot child) (hchild' : a.IsChild node slot child')
    (hnames : a.DistinctNames node) : child = child' := by
  obtain ⟨-, fields, value, hfields, hfield, hplace⟩ := hchild
  obtain ⟨-, fields', value', hfields', hfield', hplace'⟩ := hchild'
  obtain rfl : fields = fields' := by simpa [hfields] using hfields'
  -- One name stands for one field, and then the position stands for one item.
  obtain rfl : value = value' := by
    have heq := List.inj_on_of_nodup_map (hnames fields hfields) hfield hfield' rfl
    exact (Prod.mk.inj heq).2
  cases hindex : slot.index with
  | none =>
    simp only [hindex] at hplace hplace'
    exact hplace.symm.trans hplace'
  | some i =>
    simp only [hindex] at hplace hplace'
    obtain ⟨shape, items, hvalue, -, hitem⟩ := hplace
    obtain ⟨shape', items', hvalue', -, hitem'⟩ := hplace'
    obtain ⟨-, rfl⟩ := Value.group.inj (hvalue.symm.trans hvalue')
    exact Option.some.inj (hitem.symm.trans hitem')

/-- What a walk reaches one level down is a child of what it reached before. -/
theorem Reaches.exists_parent {a : Adapter} {root child : Value} {path : List PathEntry}
    {entry : PathEntry} (h : a.Reaches root (path ++ [entry]) child) :
    ∃ node slot, entry = slot.entry node ∧ a.Reaches root path node ∧
      a.IsChild node slot child := by
  generalize hpath : path ++ [entry] = path' at h
  cases h with
  | root => simp at hpath
  | @child path' node slot _ hnode hchild =>
    obtain ⟨rfl, hentry⟩ := List.append_inj' hpath rfl
    exact ⟨node, slot, List.singleton_inj.mp hentry, hnode, hchild⟩

/-- In a document with distinct keys a path leads to one value only. -/
theorem Reaches.unique {a : Adapter} {root node node' : Value} {path : List PathEntry}
    (h : a.Reaches root path node) (h' : a.Reaches root path node') (hkeys : root.DistinctKeys) :
    node = node' := by
  -- The induction is on the first way to the place; the other takes the same last step.
  induction h generalizing node' with
  | root =>
    generalize hpath : ([] : List PathEntry) = path' at h'
    cases h' with
    | root => rfl
    | child hnode hchild => simp at hpath
  | @child path node slot child hnode hchild ih =>
    obtain ⟨parent, slot', hentry, hparent, hchild'⟩ := h'.exists_parent
    obtain rfl := ih hparent
    rw [← Slot.entry_inj hentry] at hchild'
    exact hchild.unique hchild' (hnode.distinctNames hkeys)

end Adapter

end TreeWalk
