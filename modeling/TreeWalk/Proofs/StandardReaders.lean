import TreeWalk.Proofs.Documents
import TreeWalk.Standard

/-! # Values that are read

The standard readers store the entries of an object or a mapping one by one under their keys, so
that a key that is found again is not stored twice.

## Key results

* `Json.separateKeys_read` and `Yaml.separateKeys_read` say so of the values that are read.
* `Readers.lawful_standard` says that the standard readers are lawful.
-/

namespace TreeWalk

variable {α β : Type}

/-! ## Storing entries -/

namespace Value

/-- The keys after an entry has been stored: the same as before, if its key was found among
    them, or one more. -/
theorem map_fst_store (found : Value → Value → Bool) (key value : Value)
    (entries : List (Value × Value)) :
    (store found key value entries).map Prod.fst =
      if entries.any fun entry => found entry.1 key then entries.map Prod.fst
      else entries.map Prod.fst ++ [key] := by
  induction entries with
  | nil => rfl
  | cons entry rest ih =>
    obtain ⟨k, v⟩ := entry
    unfold store
    by_cases hfound : found k key = true
    · simp [hfound]
    · by_cases hrest : (rest.any fun entry => found entry.1 key) = true
      · simp [hfound, hrest, ih]
      · simp [hfound, hrest, ih]

/-- Every entry after storing one is that one or has the value of an earlier one. -/
theorem everyRecord_store {P : List (Value × Value) → Prop} (found : Value → Value → Bool)
    (key : Value) {value : Value} (hvalue : value.EveryRecord P) {entries : List (Value × Value)}
    (h : EveryRecordEntries P entries) : EveryRecordEntries P (store found key value entries) := by
  induction entries with
  | nil => exact ⟨hvalue, trivial⟩
  | cons entry rest ih =>
    obtain ⟨k, v⟩ := entry
    unfold store
    by_cases hfound : found k key = true
    · rw [if_pos hfound]
      exact ⟨hvalue, h.2⟩
    · rw [if_neg hfound]
      exact ⟨h.1, ih h.2⟩

/-- Storing an entry keeps keys separate, if a key that is not found is another one. -/
theorem separate_store {found : Value → Value → Bool} {key : Value} (value : Value)
    {entries : List (Value × Value)}
    (hfound : ∀ entry ∈ entries, found entry.1 key = false → entry.1.sameKey key = false)
    (h : Separate entries) : Separate (store found key value entries) := by
  unfold Separate
  rw [map_fst_store]
  by_cases hany : (entries.any fun entry => found entry.1 key) = true
  · rw [if_pos hany]
    exact h
  · rw [if_neg hany, List.pairwise_append]
    refine ⟨h, List.pairwise_singleton _ _, ?_⟩
    intro k hk last hlast
    obtain ⟨entry, hentry, rfl⟩ := List.mem_map.mp hk
    obtain rfl := List.mem_singleton.mp hlast
    -- The key is at the end because it was not found.
    refine hfound entry hentry ?_
    by_contra hkey
    exact hany (List.any_eq_true.mpr ⟨entry, hentry, by simpa using hkey⟩)

/-- The keys after an entry has been stored are the one given and those there were. -/
theorem key_of_mem_store {found : Value → Value → Bool} {key value : Value}
    {entries : List (Value × Value)} {entry : Value × Value}
    (h : entry ∈ store found key value entries) :
    entry.1 = key ∨ ∃ earlier ∈ entries, earlier.1 = entry.1 := by
  have hmem : entry.1 ∈ (store found key value entries).map Prod.fst := List.mem_map_of_mem h
  rw [map_fst_store] at hmem
  split at hmem
  · exact .inr (List.mem_map.mp hmem)
  · rcases List.mem_append.mp hmem with hmem | hmem
    · exact .inr (List.mem_map.mp hmem)
    · exact .inl (List.mem_singleton.mp hmem)

/-- Storing entries one by one in an empty dictionary makes a dictionary with separate keys,
    which are of the sort `K` of the keys that are stored. -/
theorem separateKeys_foldl_store {found : Value → Value → Bool} {K : Value → Prop}
    (hfound : ∀ k key, K k → K key → found k key = false → k.sameKey key = false)
    {entries : List (Value × Value)} (hkeys : ∀ entry ∈ entries, K entry.1)
    (hentries : EveryRecordEntries Separate entries) :
    let stored := entries.foldl (fun stored entry => store found entry.1 entry.2 stored) []
    (∀ entry ∈ stored, K entry.1) ∧ (Value.dict stored).SeparateKeys := by
  suffices h : ∀ stored : List (Value × Value), (∀ entry ∈ stored, K entry.1) →
      Separate stored → EveryRecordEntries Separate stored →
      let all := entries.foldl (fun stored entry => store found entry.1 entry.2 stored) stored
      (∀ entry ∈ all, K entry.1) ∧ Separate all ∧ EveryRecordEntries Separate all from
    h [] (fun _ hmem => absurd hmem List.not_mem_nil) List.Pairwise.nil trivial
  -- The induction is on the entries still to come; what is stored varies with them.
  induction entries with
  | nil => exact fun stored hstored hseparate hevery => ⟨hstored, hseparate, hevery⟩
  | cons entry rest ih =>
    intro stored hstored hseparate hevery
    have hkey : K entry.1 := hkeys entry List.mem_cons_self
    refine ih (fun e he => hkeys e (List.mem_cons_of_mem _ he)) hentries.2 _ ?_ ?_ ?_
    · intro e he
      rcases key_of_mem_store he with heq | ⟨earlier, hearlier, heq⟩
      · rw [heq]
        exact hkey
      · rw [← heq]
        exact hstored earlier hearlier
    · exact separate_store entry.2
        (fun e he => hfound e.1 entry.1 (hstored e he) hkey) hseparate
    · exact everyRecord_store found entry.1 hentries.1 hevery

/-- What holds of every item holds in all of them. -/
theorem everyRecordItems_of_forall {P : List (Value × Value) → Prop} {items : List Value}
    (h : ∀ item ∈ items, item.EveryRecord P) : EveryRecordItems P items := by
  induction items with
  | nil => trivial
  | cons item rest ih =>
    exact ⟨h item List.mem_cons_self, ih fun other hmem => h other (List.mem_cons_of_mem _ hmem)⟩

end Value

/-! ## JSON -/

namespace Json

open Value

/-- A numeral spells a number, which holds no records. -/
theorem separateKeys_readNumeral {limit : Option Nat} {negative : Bool}
    {whole cs rest : List Char} {value : Value}
    (h : readNumeral limit negative whole cs = .ok (value, rest)) : value.SeparateKeys := by
  -- The branches are those of the numeral: a float, an integer within the limit, one beyond it.
  unfold readNumeral at h
  dsimp only at h
  split at h
  · -- Without a digit there is no number.
    cases h
  · split at h
    · obtain ⟨rfl, -⟩ := Prod.mk.inj (Except.ok.inj h)
      trivial
    · split at h
      · split at h
        · obtain ⟨rfl, -⟩ := Prod.mk.inj (Except.ok.inj h)
          trivial
        · cases h
      · obtain ⟨rfl, -⟩ := Prod.mk.inj (Except.ok.inj h)
        trivial

/-- Words and numbers hold no records. -/
theorem separateKeys_readAtom {limit : Option Nat} {cs rest : List Char} {value : Value}
    (h : readAtom limit cs = .ok (value, rest)) : value.SeparateKeys := by
  unfold readAtom at h
  split at h
  case h_7 | h_8 => exact separateKeys_readNumeral h
  all_goals
    obtain ⟨rfl, -⟩ := Prod.mk.inj (Except.ok.inj h)
    trivial

mutual

/-- The value that is read has separate keys. -/
theorem separateKeys_readValue {limit : Option Nat} : ∀ (fuel : Nat) {cs rest : List Char}
    {value : Value}, readValue limit fuel cs = .ok (value, rest) → value.SeparateKeys
  | 0, cs, rest, value, h => by
    rw [readValue] at h
    cases h
  | fuel + 1, cs, rest, value, h => by
    unfold readValue at h
    split at h
    · -- A string.
      obtain ⟨⟨s, rest'⟩, -, h⟩ := exists_of_bind_eq_ok h
      obtain ⟨rfl, -⟩ := Prod.mk.inj (Except.ok.inj h)
      trivial
    · split at h
      · obtain ⟨rfl, -⟩ := Prod.mk.inj (Except.ok.inj h)
        trivial
      · obtain ⟨⟨items, rest'⟩, hitems, h⟩ := exists_of_bind_eq_ok h
        obtain ⟨rfl, -⟩ := Prod.mk.inj (Except.ok.inj h)
        exact separateKeys_readItems fuel hitems
    · split at h
      · obtain ⟨rfl, -⟩ := Prod.mk.inj (Except.ok.inj h)
        exact ⟨List.Pairwise.nil, trivial⟩
      · obtain ⟨⟨entries, rest'⟩, hentries, h⟩ := exists_of_bind_eq_ok h
        obtain ⟨rfl, -⟩ := Prod.mk.inj (Except.ok.inj h)
        obtain ⟨hkeys, hentries⟩ := separateKeys_readEntries fuel hentries
        refine (separateKeys_foldl_store (K := fun key => ∃ s, key = .str s) ?_ hkeys hentries).2
        -- Texts are one key only if they are equal.
        rintro _ _ ⟨s, rfl⟩ ⟨t, rfl⟩ hfound
        rw [sameKey_str, ← hfound, same_str]
        rfl
    · exact separateKeys_readAtom h

/-- The items that are read have separate keys. -/
theorem separateKeys_readItems {limit : Option Nat} : ∀ (fuel : Nat) {cs rest : List Char}
    {items : List Value},
    readItems limit fuel cs = .ok (items, rest) → EveryRecordItems Separate items
  | 0, cs, rest, items, h => by
    rw [readItems] at h
    cases h
  | fuel + 1, cs, rest, items, h => by
    rw [readItems] at h
    -- The first item is read, and then the array is closed or goes on.
    obtain ⟨⟨item, rest'⟩, hitem, h⟩ := exists_of_bind_eq_ok h
    have hfirst := separateKeys_readValue fuel hitem
    dsimp only at h
    split at h
    · obtain ⟨rfl, -⟩ := Prod.mk.inj (Except.ok.inj h)
      exact ⟨hfirst, trivial⟩
    · obtain ⟨⟨others, rest'⟩, hothers, h⟩ := exists_of_bind_eq_ok h
      obtain ⟨rfl, -⟩ := Prod.mk.inj (Except.ok.inj h)
      exact ⟨hfirst, separateKeys_readItems fuel hothers⟩
    · cases h

/-- The entries that are read have texts for keys and values with separate keys. -/
theorem separateKeys_readEntries {limit : Option Nat} : ∀ (fuel : Nat) {cs rest : List Char}
    {entries : List (Value × Value)}, readEntries limit fuel cs = .ok (entries, rest) →
    (∀ entry ∈ entries, ∃ s, entry.1 = .str s) ∧ EveryRecordEntries Separate entries
  | 0, cs, rest, entries, h => by
    rw [readEntries] at h
    cases h
  | fuel + 1, cs, rest, entries, h => by
    unfold readEntries at h
    split at h
    · -- Key, colon and value are read in turn, and then the object is closed or goes on.
      obtain ⟨⟨key, rest'⟩, -, h⟩ := exists_of_bind_eq_ok h
      dsimp only at h
      split at h
      · obtain ⟨⟨value, rest'⟩, hvalue, h⟩ := exists_of_bind_eq_ok h
        have hfirst := separateKeys_readValue fuel hvalue
        dsimp only at h
        split at h
        · obtain ⟨rfl, -⟩ := Prod.mk.inj (Except.ok.inj h)
          exact ⟨List.forall_mem_singleton.mpr ⟨key, rfl⟩, hfirst, trivial⟩
        · obtain ⟨⟨others, rest'⟩, hothers, h⟩ := exists_of_bind_eq_ok h
          obtain ⟨rfl, -⟩ := Prod.mk.inj (Except.ok.inj h)
          obtain ⟨hkeys, hentries⟩ := separateKeys_readEntries fuel hothers
          exact ⟨List.forall_mem_cons.mpr ⟨⟨key, rfl⟩, hkeys⟩, hfirst, hentries⟩
        · cases h
      · cases h
    · cases h

end

/-- The value of a JSON document has separate keys. -/
theorem separateKeys_read {text : List Char} {root : Value} (h : read text = .ok root) :
    root.SeparateKeys := by
  unfold read readUpTo at h
  split at h
  · cases h
  · obtain ⟨⟨value, rest⟩, hvalue, h⟩ := exists_of_bind_eq_ok h
    dsimp only at h
    split at h
    · obtain rfl := Except.ok.inj h
      exact separateKeys_readValue _ hvalue
    · cases h

end Json

/-! ## YAML -/

namespace Yaml

open Value

/-- A value that is made of what another computation gives. -/
theorem exists_of_map_ok {γ : Type} {f : γ → Value} {m : Except Error γ} {value : Value}
    (h : f <$> m = .ok value) : ∃ c, f c = value := by
  cases m with
  | error e => cases h
  | ok c => exact ⟨c, Except.ok.inj h⟩

/-- A day holds no records, and a moment is a record without entries. -/
theorem Timestamp.separateKeys_read {text : String} {value : Value}
    (h : Timestamp.read text = .ok value) : value.SeparateKeys := by
  unfold Timestamp.read at h
  split at h
  · cases h
  · split at h
    · obtain ⟨_, rfl⟩ := exists_of_map_ok h
      trivial
    · obtain ⟨_, rfl⟩ := exists_of_map_ok h
      exact ⟨List.Pairwise.nil, trivial⟩

/-- A scalar spells a value in which all keys are separate. -/
theorem Scalar.separateKeys_read {tag : Tag} {text : String} {value : Value}
    (h : Scalar.read tag text = .ok value) : value.SeparateKeys := by
  unfold Scalar.read at h
  cases tag with
  | null | str =>
    obtain rfl := Except.ok.inj h
    trivial
  | bool | int | float | binary =>
    obtain ⟨_, rfl⟩ := exists_of_map_ok h
    trivial
  | timestamp => exact Timestamp.separateKeys_read h
  | seq | map | set | omap | pairs | merge | value | unknown => cases h

namespace Node

variable {γ : Type}

/-- Two values are put together only if there are two. -/
theorem exists_of_both_eq_ok {f : α → β → γ} {x : Except Flaw α} {y : Except Flaw β} {c : γ}
    (h : both f x y = .ok c) : ∃ a b, x = .ok a ∧ y = .ok b ∧ f a b = c := by
  cases x with
  | error e => cases y <;> cases h
  | ok a =>
    cases y with
    | error e => cases h
    | ok b => exact ⟨a, b, rfl, rfl, Except.ok.inj h⟩

/-- Only a value that there is is fit for a key. -/
theorem eq_ok_of_fitKey {depth : Nat} {key : Except Flaw Value} {value : Value}
    (h : fitKey depth key = .ok value) : key = .ok value := by
  unfold fitKey at h
  split at h
  · split at h
    · exact h
    · cases h
  · exact h

/-- Storing the entries of a mapping gives separate keys, whatever they are: a key that is not
    found again is another one. -/
theorem separateKeys_storeShared {all : List (Value × Value)}
    (hkeys : ∀ entry ∈ all, entry.1.SeparateKeys) (hvalues : EveryRecordEntries Separate all) :
    (∀ entry ∈ storeShared all, entry.1.SeparateKeys) ∧
      (Value.dict (storeShared all)).SeparateKeys :=
  separateKeys_foldl_store (fun _ _ _ _ hfound => hfound) hkeys hvalues

mutual

/-- The value of a node has separate keys. -/
theorem separateKeys_value : ∀ {depth : Nat} (node : Node) {v : Value},
    value depth node = .ok v → v.SeparateKeys
  | depth, .scalar tag text, v, h => by
    -- The induction is on the node; what a tag makes of a scalar is settled apart.
    unfold value at h
    split at h
    · rename_i hread
      obtain rfl := Except.ok.inj h
      exact Scalar.separateKeys_read hread
    · cases h
    · cases h
  | depth, .sequence tag items, v, h => by
    unfold value at h
    split at h
    · obtain ⟨all, hall, rfl⟩ := exists_of_map_eq_ok h
      exact separateKeys_values items hall
    · obtain ⟨all, hall, rfl⟩ := exists_of_map_eq_ok h
      exact separateKeys_pairs items hall
    · obtain ⟨all, hall, rfl⟩ := exists_of_map_eq_ok h
      exact separateKeys_pairs items hall
    · cases h
  | depth, .mapping tag entries, v, h => by
    unfold value at h
    split at h
    · obtain ⟨all, hall, rfl⟩ := exists_of_map_eq_ok h
      obtain ⟨hkeys, hvalues⟩ := separateKeys_entryValues entries hall
      exact (separateKeys_storeShared hkeys hvalues).2
    · -- A set holds the keys alone.
      obtain ⟨all, hall, rfl⟩ := exists_of_map_eq_ok h
      obtain ⟨hkeys, hvalues⟩ := separateKeys_entryValues entries hall
      refine everyRecordItems_of_forall fun item hitem => ?_
      obtain ⟨entry, hentry, rfl⟩ := List.mem_map.mp hitem
      exact (separateKeys_storeShared hkeys hvalues).1 entry hentry
    · cases h

/-- The values of nodes have separate keys. -/
theorem separateKeys_values : ∀ {depth : Nat} (items : List Node) {all : List Value},
    values depth items = .ok all → EveryRecordItems Separate all
  | depth, [], all, h => by
    obtain rfl : [] = all := by simpa [values] using h
    trivial
  | depth, item :: rest, all, h => by
    rw [values] at h
    obtain ⟨first, others, hfirst, hothers, rfl⟩ := exists_of_both_eq_ok h
    exact ⟨separateKeys_value item hfirst, separateKeys_values rest hothers⟩

/-- The keys and values of entries have separate keys. -/
theorem separateKeys_entryValues : ∀ {depth : Nat} (entries : List (Node × Node))
    {all : List (Value × Value)}, entryValues depth entries = .ok all →
    (∀ entry ∈ all, entry.1.SeparateKeys) ∧ EveryRecordEntries Separate all
  | depth, [], all, h => by
    obtain rfl : [] = all := by simpa [entryValues] using h
    exact ⟨fun _ hmem => absurd hmem List.not_mem_nil, trivial⟩
  | depth, (key, item) :: rest, all, h => by
    rw [entryValues] at h
    obtain ⟨_, others, hfirst, hothers, rfl⟩ := exists_of_both_eq_ok h
    obtain ⟨k, v, hk, hv, rfl⟩ := exists_of_both_eq_ok hfirst
    obtain ⟨hkeys, hvalues⟩ := separateKeys_entryValues rest hothers
    exact ⟨List.forall_mem_cons.mpr ⟨separateKeys_value key (eq_ok_of_fitKey hk), hkeys⟩,
      separateKeys_value item hv, hvalues⟩

/-- The pairs of an ordered list have separate keys. -/
theorem separateKeys_pairs : ∀ {depth : Nat} (items : List Node) {all : List Value},
    pairs depth items = .ok all → EveryRecordItems Separate all
  | depth, [], all, h => by
    obtain rfl : [] = all := by simpa [pairs] using h
    trivial
  | depth, .mapping _ [(key, item)] :: rest, all, h => by
    rw [pairs] at h
    obtain ⟨_, others, hfirst, hothers, rfl⟩ := exists_of_both_eq_ok h
    obtain ⟨k, v, hk, hv, rfl⟩ := exists_of_both_eq_ok hfirst
    exact ⟨⟨separateKeys_value key hk, separateKeys_value item hv, trivial⟩,
      separateKeys_pairs rest hothers⟩
  | depth, .scalar _ _ :: _, all, h | depth, .sequence _ _ :: _, all, h
  | depth, .mapping _ [] :: _, all, h | depth, .mapping _ (_ :: _ :: _) :: _, all, h => by
    simp [pairs] at h

end

end Node

/-- The value of a YAML document has separate keys. -/
theorem separateKeys_read {text : List Char} {root : Value} (h : read text = .ok root) :
    root.SeparateKeys := by
  -- Everything before the value concerns the text, and the value alone is held against its keys.
  unfold read at h
  obtain ⟨tokens, -, h⟩ := exists_of_bind_eq_ok h
  obtain ⟨parsed, -, h⟩ := exists_of_bind_eq_ok h
  cases parsed with
  | none =>
    obtain rfl := Except.ok.inj h
    trivial
  | some node =>
    obtain ⟨merged, -, h⟩ := exists_of_bind_eq_ok h
    cases hvalue : merged.value 0 with
    | error flaw =>
      rw [hvalue] at h
      cases h
    | ok v =>
      rw [hvalue] at h
      obtain rfl := Except.ok.inj h
      exact Node.separateKeys_value merged hvalue

end Yaml

namespace Readers

/-- What the standard readers give is what lawful readers may give. -/
theorem lawful_standard : standard.Lawful where
  json text root h := Json.separateKeys_read (eq_ok_of_mapError h)
  yaml text root h := Yaml.separateKeys_read (eq_ok_of_mapError h)
  source text root h := by
    have hread : Source.read text = .ok root := eq_ok_of_mapError h
    unfold Source.read at hread
    split at hread
    · cases hread
    · dsimp only at hread
      split at hread
      · exact ⟨_, [], (Except.ok.inj hread).symm⟩
      · cases hread

end Readers

end TreeWalk
