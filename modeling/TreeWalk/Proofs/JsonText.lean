import TreeWalk.Proofs.JsonTokens

/-! # JSON text

A document that has been written is read back as it was: strings whatever their characters,
integers as long as they are not too long to be read, and objects whose names are distinct.
The text is plain ASCII, so that it does not matter in which encoding it is stored.

## Key results

* `Term.Readable` says which documents can be read back, and `Term.value` is what they are read
  back as.
* `Term.isAscii_chars` says that the text of every document is plain ASCII.
* `Term.read_chars` reads a document back.
-/

namespace TreeWalk

namespace Json

variable {rest : List Char}

/-! ## Documents -/

namespace Term

mutual

/-- What a document is read back as. -/
def value : Term → Value
  | .text s => .str s
  | .number n => .int n
  | .array items => .list (valueAll items)
  | .object fields => .dict (valueFields fields)

def valueAll : List Term → List Value
  | [] => []
  | item :: rest => item.value :: valueAll rest

def valueFields : List (String × Term) → List (Value × Value)
  | [] => []
  | (name, item) :: rest => (.str name, item.value) :: valueFields rest

end

section

variable (limit : Option Nat)

mutual

/-- A document can be read back if its numbers have no more digits than the limit allows and the
    names of every object are distinct. -/
def Readable : Term → Prop
  | .text _ => True
  | .number n => Numeral.Within limit n.natAbs
  | .array items => ReadableAll items
  | .object fields => (fields.map Prod.fst).Nodup ∧ ReadableFields fields

def ReadableAll : List Term → Prop
  | [] => True
  | item :: rest => item.Readable ∧ ReadableAll rest

def ReadableFields : List (String × Term) → Prop
  | [] => True
  | (_, item) :: rest => item.Readable ∧ ReadableFields rest

end

end

/-- The first character of a document is neither a blank nor the end of an array. -/
theorem exists_chars_eq (t : Term) (level : Nat) :
    ∃ c cs, t.chars level = c :: cs ∧ isBlank c = false ∧ c ≠ ']' := by
  -- Each kind of term starts with a character of its own.
  cases t with
  | text s => exact ⟨'"', _, rfl, rfl, by decide⟩
  | number n =>
    obtain ⟨c, digits, hdigits, hc⟩ := Numeral.exists_toDigits_eq n.natAbs
    rw [chars, toList_toString, hdigits]
    split
    · exact ⟨c, digits, rfl, by simp [isBlank, ne_of_isDigit hc], ne_of_isDigit hc rfl⟩
    · exact ⟨'-', _, rfl, rfl, by decide⟩
  | array items =>
    cases items <;> exact ⟨'[', _, rfl, rfl, by decide⟩
  | object fields =>
    cases fields <;> exact ⟨'\x7b', _, rfl, rfl, by decide⟩

/-- What is written is never empty. -/
theorem chars_ne_nil (t : Term) (level : Nat) : t.chars level ≠ [] := by
  obtain ⟨c, cs, hchars, -⟩ := t.exists_chars_eq level
  rw [hchars]
  exact List.cons_ne_nil c cs

end Term

/-! ## Plain ASCII -/

namespace IsAscii

/-- A separator between items that are in ASCII gives a text in ASCII. -/
theorem intercalate {separator : List Char} {items : List (List Char)}
    (hseparator : IsAscii separator) (hitems : ∀ item ∈ items, IsAscii item) :
    IsAscii (separator.intercalate items) := by
  induction items with
  | nil => exact nil
  | cons item rest ih =>
    rw [List.forall_mem_cons] at hitems
    cases rest with
    | nil =>
      rw [List.intercalate_singleton]
      exact hitems.1
    | cons next rest =>
      rw [List.intercalate_cons_cons]
      exact (hitems.1.append hseparator).append (ih hitems.2)

/-- A new line is in ASCII. -/
theorem newline (level : Nat) : IsAscii (Json.newline level) := by
  apply cons (by decide)
  intro c hc
  rw [List.eq_of_mem_replicate hc]
  decide

/-- Items between brackets are in ASCII if they themselves are. -/
theorem enclose {opening closing : Char} {items : List (List Char)}
    (hopening : opening.toNat < 128) (hclosing : closing.toNat < 128)
    (hitems : ∀ item ∈ items, IsAscii item) (level : Nat) :
    IsAscii (Json.enclose opening closing level items) := by
  have hend : IsAscii [closing] := nil.cons hclosing
  cases items with
  | nil => exact hend.cons hopening
  | cons item rest =>
    have hbetween := ((newline (level + 1)).cons (by decide : ','.toNat < 128)).intercalate hitems
    exact ((((newline (level + 1)).cons hopening).append hbetween).append (newline level)).append
      hend

end IsAscii

namespace Term

mutual

/-- The text of a document is plain ASCII. -/
theorem isAscii_chars (level : Nat) : ∀ t : Term, IsAscii (t.chars level)
  | .text s => .quote s
  | .number n => .toString n
  | .array items => .enclose (by decide) (by decide) (isAscii_charsAll (level + 1) items) level
  | .object fields =>
    .enclose (by decide) (by decide) (isAscii_charsFields (level + 1) fields) level

/-- So are all items of an array. -/
theorem isAscii_charsAll (level : Nat) : ∀ items : List Term,
    ∀ cs ∈ charsAll level items, IsAscii cs
  | [] => by simp [charsAll]
  | item :: rest =>
    List.forall_mem_cons.mpr ⟨isAscii_chars level item, isAscii_charsAll level rest⟩

/-- So are all fields of an object. -/
theorem isAscii_charsFields (level : Nat) : ∀ fields : List (String × Term),
    ∀ cs ∈ charsFields level fields, IsAscii cs
  | [] => by simp [charsFields]
  | (name, item) :: rest => by
    have hblank : IsAscii (' ' :: item.chars level) := (isAscii_chars level item).cons (by decide)
    exact List.forall_mem_cons.mpr ⟨(IsAscii.quote name).append (hblank.cons (by decide)),
      isAscii_charsFields level rest⟩

end

end Term

/-! ## Layout -/

/-- Nothing is skipped in front of a character that is no blank. -/
theorem skipBlanks_of_isBlank {c : Char} (hc : isBlank c = false) :
    skipBlanks (c :: rest) = c :: rest :=
  List.dropWhile_cons_of_neg (by simp [hc])

/-- Blanks in front are skipped. -/
theorem skipBlanks_append {blanks : List Char} (h : ∀ c ∈ blanks, isBlank c = true)
    (rest : List Char) : skipBlanks (blanks ++ rest) = skipBlanks rest :=
  List.dropWhile_append_of_pos h

/-- The line end and the indentation in front of an item are skipped. -/
theorem skipBlanks_newline (level : Nat) (rest : List Char) :
    skipBlanks (newline level ++ rest) = skipBlanks rest := by
  apply skipBlanks_append
  intro c hc
  rcases List.mem_cons.mp hc with rfl | hc
  · rfl
  · rw [List.eq_of_mem_replicate hc]
    rfl

/-- Nothing is skipped in front of a term. -/
theorem Term.skipBlanks_chars (t : Term) (level : Nat) (rest : List Char) :
    skipBlanks (t.chars level ++ rest) = t.chars level ++ rest := by
  obtain ⟨c, cs, hchars, hc, -⟩ := t.exists_chars_eq level
  rw [hchars]
  exact skipBlanks_of_isBlank hc

/-- The blank between a name and its value is skipped. -/
theorem Term.skipBlanks_blank_chars (t : Term) (level : Nat) (rest : List Char) :
    skipBlanks (' ' :: (t.chars level ++ rest)) = t.chars level ++ rest :=
  t.skipBlanks_chars level rest

/-- Items between brackets from the first one on, up to the closing bracket. -/
def inside (closing : Char) (level : Nat) (items : List (List Char)) (rest : List Char) :
    List Char :=
  (',' :: newline (level + 1)).intercalate items ++ (newline level ++ closing :: rest)

variable {opening closing : Char} {level : Nat} {item next : List Char}
  {items others : List (List Char)}

/-- Inside brackets, the last item is followed by the closing one. -/
theorem inside_singleton :
    inside closing level [item] rest = item ++ (newline level ++ closing :: rest) := by
  rw [inside, List.intercalate_singleton]

/-- Inside brackets, an item that is not the last is followed by a comma. -/
theorem inside_cons_cons :
    inside closing level (item :: next :: others) rest =
      item ++ ',' :: (newline (level + 1) ++ inside closing level (next :: others) rest) := by
  simp [inside, List.intercalate_cons_cons]

/-- What stands between brackets begins with the first item. -/
theorem exists_inside_eq (c : Char) (cs : List Char) (others : List (List Char)) :
    ∃ tail, inside closing level ((c :: cs) :: others) rest = c :: tail := by
  cases others with
  | nil => exact ⟨_, inside_singleton⟩
  | cons next others => exact ⟨_, inside_cons_cons⟩

/-- The new line behind an opening bracket is skipped. -/
theorem skipBlanks_inside {c : Char} {cs : List Char} (hc : isBlank c = false) :
    skipBlanks (newline (level + 1) ++ inside closing level ((c :: cs) :: others) rest) =
      inside closing level ((c :: cs) :: others) rest := by
  obtain ⟨tail, htail⟩ := exists_inside_eq c cs others
  rw [skipBlanks_newline, htail, skipBlanks_of_isBlank hc]

/-- What is inside brackets starts as its first item does. -/
theorem inside_ne {c other : Char} {cs tail : List Char} (hc : c ≠ other) :
    inside closing level ((c :: cs) :: others) rest ≠ other :: tail := by
  obtain ⟨tail', htail⟩ := exists_inside_eq c cs others
  rw [htail]
  intro heq
  exact hc (List.cons.inj heq).1

/-- Brackets around items, and what comes behind them. -/
theorem enclose_append (hitems : items ≠ []) :
    enclose opening closing level items ++ rest =
      opening :: (newline (level + 1) ++ inside closing level items rest) := by
  cases items with
  | nil => exact absurd rfl hitems
  | cons item others => simp [enclose, inside]

/-- Each item takes at least its own characters, and there are the brackets besides. -/
theorem length_intercalate_lt (hitems : items ≠ []) :
    ((',' :: newline (level + 1)).intercalate items).length + 1 <
      (enclose opening closing level items).length := by
  cases items with
  | nil => exact absurd rfl hitems
  | cons item others =>
    simp only [enclose, List.length_append, List.length_cons]
    omega

/-- Without its first item a list is shorter, by this item at least. -/
theorem length_intercalate_cons_cons (level : Nat) (item next : List Char)
    (others : List (List Char)) :
    item.length + ((',' :: newline (level + 1)).intercalate (next :: others)).length <
      ((',' :: newline (level + 1)).intercalate (item :: next :: others)).length := by
  rw [List.intercalate_cons_cons]
  simp only [List.length_append, List.length_cons]
  omega

/-- A new line ends a numeral. -/
theorem delimited_newline : Delimited (newline level ++ rest) := by
  rintro c hc
  obtain rfl := Option.some.inj hc
  exact .inl rfl

/-- A comma ends a numeral. -/
theorem delimited_comma : Delimited (',' :: rest) := by
  rintro c hc
  obtain rfl := Option.some.inj hc
  exact .inr rfl

/-! ## Reading back -/

/-- What is done with the result of a reader that succeeds. -/
theorem bind_of_eq_ok {ε α β : Type} {m : Except ε α} {a : α} (h : m = .ok a)
    (f : α → Except ε β) : (m >>= f) = f a := by
  rw [h]
  rfl

variable {limit : Option Nat}

section

variable {fuel : Nat} {cs rest' : List Char} {value : Value} {values : List Value}
  {entries : List (Value × Value)}

/-- A text in quotes is read back. -/
theorem readValue_quote (s : String) :
    readValue limit (fuel + 1) (quote s ++ rest) = .ok (.str s, rest) := by
  rw [quote_append, readValue, bind_of_eq_ok (readString_quoted s rest)]
  rfl

/-- An integer is read back if what comes behind it ends its digits. -/
theorem readValue_toString {n : Int} (hn : Numeral.Within limit n.natAbs)
    (hrest : Delimited rest) :
    readValue limit (fuel + 1) ((toString n).toList ++ rest) = .ok (.int n, rest) := by
  have hread := readAtom_toString hn hrest
  obtain ⟨c, digits, hdigits, hc⟩ := Numeral.exists_toDigits_eq n.natAbs
  rw [toList_toString, hdigits] at hread ⊢
  -- Neither a digit nor a sign starts a text, an array or an object.
  split at hread
  · next hsign =>
    rw [if_pos hsign]
    rw [List.cons_append] at hread ⊢
    rw [readValue, hread]
    all_goals
      intro _ heq
      exact ne_of_isDigit hc rfl (List.cons.inj heq).1
  · next hsign =>
    rw [if_neg hsign]
    exact hread

/-- An array with items is read from its first item on. -/
theorem readValue_array (hitems : readItems limit fuel (skipBlanks cs) = .ok (values, rest))
    (hopen : ∀ rest', skipBlanks cs ≠ ']' :: rest') :
    readValue limit (fuel + 1) ('[' :: cs) = .ok (.list values, rest) := by
  rw [readValue]
  split
  · next rest' hclosed => exact absurd hclosed (hopen rest')
  · rw [bind_of_eq_ok hitems]
    rfl

/-- An object with entries is read from its first entry on. -/
theorem readValue_object (hentries : readEntries limit fuel (skipBlanks cs) = .ok (entries, rest))
    (hopen : ∀ rest', skipBlanks cs ≠ '\x7d' :: rest') :
    readValue limit (fuel + 1) ('\x7b' :: cs) = .ok (.dict (Value.storeAll entries), rest) := by
  rw [readValue]
  split
  · next rest' hclosed => exact absurd hclosed (hopen rest')
  · rw [bind_of_eq_ok hentries]
    rfl

/-- The last item of an array. -/
theorem readItems_last
    (hvalue : readValue limit fuel cs = .ok (value, newline level ++ ']' :: rest)) :
    readItems limit (fuel + 1) cs = .ok ([value], rest) := by
  have hskip : skipBlanks (newline level ++ ']' :: rest) = ']' :: rest :=
    skipBlanks_newline level _
  rw [readItems, bind_of_eq_ok hvalue]
  simp only [hskip]
  rfl

/-- An item of an array with others behind it. -/
theorem readItems_more (hvalue : readValue limit fuel cs = .ok (value, ',' :: rest'))
    (hitems : readItems limit fuel (skipBlanks rest') = .ok (values, rest)) :
    readItems limit (fuel + 1) cs = .ok (value :: values, rest) := by
  have hskip : skipBlanks (',' :: rest') = ',' :: rest' := rfl
  rw [readItems, bind_of_eq_ok hvalue]
  simp only [hskip]
  rw [bind_of_eq_ok hitems]
  rfl

/-- An entry is read up to what stands behind its value. -/
theorem readEntries_field (name : String) (item : Term)
    (hvalue : readValue limit fuel (item.chars level ++ cs) = .ok (value, rest')) :
    readEntries limit (fuel + 1) (quote name ++ ':' :: ' ' :: (item.chars level ++ cs)) =
      match skipBlanks rest' with
      | '\x7d' :: rest => .ok ([(.str name, value)], rest)
      | ',' :: rest => do
        let (entries, rest) ← readEntries limit fuel (skipBlanks rest)
        return ((.str name, value) :: entries, rest)
      | rest => throw (faultAt .expectingComma rest) := by
  -- Between the name and the value there is a colon and one blank.
  have hcolon : skipBlanks (':' :: ' ' :: (item.chars level ++ cs)) =
      ':' :: ' ' :: (item.chars level ++ cs) := rfl
  rw [quote_append, readEntries, bind_of_eq_ok (readString_quoted name _)]
  simp only [hcolon]
  rw [item.skipBlanks_blank_chars, bind_of_eq_ok hvalue]
  rfl

/-- The last entry of an object. -/
theorem readEntries_last (name : String) (item : Term) {outer : Nat}
    (hvalue : readValue limit fuel (item.chars level ++ cs) =
      .ok (value, newline outer ++ '\x7d' :: rest)) :
    readEntries limit (fuel + 1) (quote name ++ ':' :: ' ' :: (item.chars level ++ cs)) =
      .ok ([(.str name, value)], rest) := by
  have hskip : skipBlanks (newline outer ++ '\x7d' :: rest) = '\x7d' :: rest :=
    skipBlanks_newline outer _
  rw [readEntries_field name item hvalue, hskip]
  rfl

/-- An entry of an object with others behind it. -/
theorem readEntries_more (name : String) (item : Term)
    (hvalue : readValue limit fuel (item.chars level ++ cs) = .ok (value, ',' :: rest'))
    (hentries : readEntries limit fuel (skipBlanks rest') = .ok (entries, rest)) :
    readEntries limit (fuel + 1) (quote name ++ ':' :: ' ' :: (item.chars level ++ cs)) =
      .ok ((.str name, value) :: entries, rest) := by
  have hskip : skipBlanks (',' :: rest') = ',' :: rest' := rfl
  rw [readEntries_field name item hvalue, hskip]
  show (readEntries limit fuel (skipBlanks rest') >>= _) = _
  rw [bind_of_eq_ok hentries]
  rfl

end

/-- Storing under a new key adds an entry at the end. -/
theorem store_of_forall_ne {key value : Value} {stored : List (Value × Value)}
    (h : ∀ entry ∈ stored, entry.1.same key = false) :
    Value.store Value.same key value stored = stored ++ [(key, value)] := by
  induction stored with
  | nil => rfl
  | cons entry rest ih =>
    rw [List.forall_mem_cons] at h
    rw [Value.store, h.1, ih h.2]
    rfl

/-- Entries with distinct keys are stored as they are. -/
theorem storeAll_of_pairwise {entries : List (Value × Value)}
    (h : entries.Pairwise fun entry later => entry.1.same later.1 = false) :
    Value.storeAll entries = entries := by
  -- The induction is on the entries to come, with those stored so far in front of them.
  have hfold : ∀ stored : List (Value × Value),
      (stored ++ entries).Pairwise (fun entry later => entry.1.same later.1 = false) →
      entries.foldl (fun stored entry => Value.store Value.same entry.1 entry.2 stored) stored =
        stored ++ entries := by
    clear h
    induction entries with
    | nil => simp
    | cons entry rest ih =>
      intro stored hstored
      have hnew : ∀ earlier ∈ stored, earlier.1.same entry.1 = false := fun earlier hearlier =>
        (List.pairwise_append.mp hstored).2.2 earlier hearlier entry List.mem_cons_self
      rw [List.foldl_cons, store_of_forall_ne hnew, ih _ (by simpa using hstored)]
      simp
  exact hfold [] h

namespace Term

/-- The entries of an object are found under its names. -/
theorem valueFields_eq_map (fields : List (String × Term)) :
    valueFields fields = fields.map fun field => (.str field.1, field.2.value) := by
  induction fields with
  | nil => rfl
  | cons field rest ih =>
    obtain ⟨name, item⟩ := field
    rw [valueFields, ih, List.map_cons]

/-- An object with distinct names keeps all its entries. -/
theorem storeAll_valueFields {fields : List (String × Term)}
    (h : (fields.map Prod.fst).Nodup) :
    Value.storeAll (valueFields fields) = valueFields fields := by
  apply storeAll_of_pairwise
  rw [valueFields_eq_map, List.pairwise_map]
  apply (List.pairwise_map.mp h).imp
  intro field later hne
  simpa [Value.isText] using hne

/-- The items of an array stand right behind the blanks in front of them. -/
theorem skipBlanks_items (item : Term) (items : List Term) (level : Nat) (rest : List Char) :
    skipBlanks (newline (level + 1) ++
        inside ']' level (charsAll (level + 1) (item :: items)) rest) =
      inside ']' level (charsAll (level + 1) (item :: items)) rest := by
  obtain ⟨c, cs, hchars, hblank, -⟩ := item.exists_chars_eq (level + 1)
  rw [charsAll, hchars]
  exact skipBlanks_inside hblank

/-- The new line in front of the fields of an object is skipped. -/
theorem skipBlanks_fields (field : String × Term) (fields : List (String × Term)) (level : Nat)
    (rest : List Char) :
    skipBlanks (newline (level + 1) ++
        inside '\x7d' level (charsFields (level + 1) (field :: fields)) rest) =
      inside '\x7d' level (charsFields (level + 1) (field :: fields)) rest :=
  skipBlanks_inside rfl

mutual

/-- A document is read back wherever it stands.  Its length bounds what there is to read. -/
theorem readValue_chars : ∀ (t : Term) {level fuel : Nat} {rest : List Char}, t.Readable limit →
    Delimited rest → (t.chars level).length ≤ fuel →
    readValue limit fuel (t.chars level ++ rest) = .ok (t.value, rest)
  | t, level, 0, rest, _, _, hfuel => by
    have hnil := List.eq_nil_of_length_eq_zero (Nat.le_zero.mp hfuel)
    exact absurd hnil (t.chars_ne_nil level)
  | .text s, level, fuel + 1, rest, _, _, _ => readValue_quote s
  | .number n, level, fuel + 1, rest, hread, hrest, _ => readValue_toString hread hrest
  | .array [], level, fuel + 1, rest, _, _, _ => rfl
  | .array (item :: items), level, fuel + 1, rest, hread, _, hfuel => by
    -- The brackets alone are worth more than the one step that is spent on the array.
    have hne : charsAll (level + 1) (item :: items) ≠ [] := List.cons_ne_nil _ _
    have hlength : _ < (chars level (.array (item :: items))).length := length_intercalate_lt hne
    have hitems :
        readItems limit fuel (inside ']' level (charsAll (level + 1) (item :: items)) rest) =
        .ok (valueAll (item :: items), rest) :=
      readItems_chars (item :: items) (List.cons_ne_nil _ _) hread (by omega)
    obtain ⟨c, cs, hchars, -, hclosing⟩ := item.exists_chars_eq (level + 1)
    rw [chars, enclose_append hne]
    apply readValue_array
    · rwa [skipBlanks_items]
    · intro rest'
      rw [skipBlanks_items, charsAll, hchars]
      exact inside_ne hclosing
  | .object [], level, fuel + 1, rest, _, _, _ => rfl
  | .object (field :: fields), level, fuel + 1, rest, hread, _, hfuel => by
    have hne : charsFields (level + 1) (field :: fields) ≠ [] := List.cons_ne_nil _ _
    have hlength : _ < (chars level (.object (field :: fields))).length :=
      length_intercalate_lt hne
    have hentries : readEntries limit fuel
        (inside '\x7d' level (charsFields (level + 1) (field :: fields)) rest) =
          .ok (valueFields (field :: fields), rest) :=
      readEntries_chars (field :: fields) (List.cons_ne_nil _ _) hread.2 (by omega)
    -- Distinct names keep the entries apart when they are stored.
    rw [chars, enclose_append hne, value, ← storeAll_valueFields hread.1]
    apply readValue_object
    · rwa [skipBlanks_fields]
    · intro rest'
      rw [skipBlanks_fields]
      exact inside_ne (by decide)

/-- The items of an array are read from any of them on. -/
theorem readItems_chars : ∀ (items : List Term) {level fuel : Nat} {rest : List Char},
    items ≠ [] → ReadableAll limit items →
    ((',' :: newline (level + 1)).intercalate (charsAll (level + 1) items)).length < fuel →
    readItems limit fuel (inside ']' level (charsAll (level + 1) items) rest) =
      .ok (valueAll items, rest)
  | [], level, fuel, rest, hne, _, _ => absurd rfl hne
  | [item], level, fuel + 1, rest, _, hread, hfuel => by
    rw [charsAll, charsAll, List.intercalate_singleton] at hfuel
    rw [charsAll, charsAll, inside_singleton]
    exact readItems_last (readValue_chars item hread.1 delimited_newline (by omega))
  | item :: next :: items, level, fuel + 1, rest, _, hread, hfuel => by
    -- What is left to be read is shorter, so that the fuel suffices for it.
    have hlength := length_intercalate_cons_cons level (item.chars (level + 1))
      (next.chars (level + 1)) (charsAll (level + 1) items)
    rw [charsAll, charsAll] at hfuel
    have hitems :
        readItems limit fuel (inside ']' level (charsAll (level + 1) (next :: items)) rest) =
        .ok (valueAll (next :: items), rest) :=
      readItems_chars (next :: items) (List.cons_ne_nil _ _) hread.2 (by rw [charsAll]; omega)
    rw [← skipBlanks_items] at hitems
    rw [charsAll, charsAll, inside_cons_cons, ← charsAll]
    exact readItems_more (readValue_chars item hread.1 delimited_comma (by omega)) hitems

/-- The entries of an object are read from any of them on. -/
theorem readEntries_chars : ∀ (fields : List (String × Term)) {level fuel : Nat}
    {rest : List Char}, fields ≠ [] → ReadableFields limit fields →
    ((',' :: newline (level + 1)).intercalate (charsFields (level + 1) fields)).length < fuel →
    readEntries limit fuel (inside '\x7d' level (charsFields (level + 1) fields) rest) =
      .ok (valueFields fields, rest)
  | [], level, fuel, rest, hne, _, _ => absurd rfl hne
  | [(name, item)], level, fuel + 1, rest, _, hread, hfuel => by
    rw [charsFields, charsFields, List.intercalate_singleton, List.length_append,
      List.length_cons, List.length_cons] at hfuel
    rw [charsFields, charsFields, inside_singleton, List.append_assoc]
    exact readEntries_last name item
      (readValue_chars item hread.1 delimited_newline (by omega))
  | (name, item) :: next :: fields, level, fuel + 1, rest, _, hread, hfuel => by
    -- What is left to be read is shorter, so that the fuel suffices for it.
    have hlength := length_intercalate_cons_cons level
      (quote name ++ ':' :: ' ' :: item.chars (level + 1))
      (quote next.1 ++ ':' :: ' ' :: next.2.chars (level + 1)) (charsFields (level + 1) fields)
    rw [List.length_append, List.length_cons, List.length_cons] at hlength
    rw [charsFields, charsFields] at hfuel
    have hentries : readEntries limit fuel
        (inside '\x7d' level (charsFields (level + 1) (next :: fields)) rest) =
          .ok (valueFields (next :: fields), rest) :=
      readEntries_chars (next :: fields) (List.cons_ne_nil _ _) hread.2 (by
        rw [charsFields]
        omega)
    rw [← skipBlanks_fields] at hentries
    rw [charsFields, charsFields, inside_cons_cons, ← charsFields, List.append_assoc]
    exact readEntries_more name item
      (readValue_chars item hread.1 delimited_comma (by omega)) hentries

end

/-- A document that can be read back is, with blanks behind it or without. -/
theorem read_chars {t : Term} (hread : t.Readable limit) {blanks : List Char}
    (hblanks : ∀ c ∈ blanks, isBlank c = true) :
    readUpTo limit (t.chars 0 ++ blanks) = .ok t.value := by
  obtain ⟨c, cs, hchars, hblank, -⟩ := t.exists_chars_eq 0
  have hdelimited : Delimited blanks := fun c hc => .inl (hblanks c (List.mem_of_mem_head? hc))
  have hend : skipBlanks blanks = [] := by
    simpa [skipBlanks] using skipBlanks_append hblanks []
  have hvalue : readValue limit (2 * (t.chars 0 ++ blanks).length + 2)
      (skipBlanks (t.chars 0 ++ blanks)) = .ok (t.value, blanks) := by
    rw [t.skipBlanks_chars]
    apply readValue_chars t hread hdelimited
    rw [List.length_append]
    omega
  -- The first character is none that only marks the encoding.
  have hmark : ∀ rest, t.chars 0 ++ blanks ≠ '\ufeff' :: rest := by
    intro rest heq
    have hfirst : c.toNat < 128 := isAscii_chars 0 t c (by rw [hchars]; exact List.mem_cons_self)
    rw [hchars, List.cons_append] at heq
    obtain ⟨rfl, -⟩ := List.cons.inj heq
    exact absurd hfirst (by decide)
  unfold readUpTo
  split
  · next rest heq => exact absurd heq (hmark rest)
  · rw [bind_of_eq_ok hvalue]
    simp only [hend]
    rfl

end Term

end Json

end TreeWalk
