import Mathlib.Data.List.Basic
import Mathlib.Data.List.Induction
import TreeWalk.Steps.Kinds

/-! # Tallies

A tally is built in pieces: every node counts itself and takes in the tallies of its
children one by one.  The pieces fit together, so that the tally of a tree is that of all
its kinds counted one after the other, and it lists them in the order in which they first
occur.

## Key results

* `Tally.merge_ofKinds` says that taking in a tally goes on counting where the first one
  ended.
* `Tally.ofKinds_eq` gives the entries of a tally: each kind once, with the number of its
  occurrences, in the order of first occurrence.
* `Tally.pairwise_mostCommon` says that the most frequent kinds come first and that ties stay
  in order.
-/

namespace TreeWalk

/-! ## First occurrences -/

section FirstOccurrences

variable {β : Type} [BEq β] [LawfulBEq β]

/-- One item more is another first occurrence if it is new. -/
theorem eraseDups_concat (items : List β) (item : β) :
    (items ++ [item]).eraseDups =
      if item ∈ items then items.eraseDups else items.eraseDups ++ [item] := by
  rw [List.eraseDups_append]
  by_cases h : item ∈ items
  · simp [h, List.removeAll]
  · simp [h, List.removeAll, List.eraseDups_cons]

/-- What is left of a list without its repetitions stands in the order of first
    occurrence. -/
theorem pairwise_idxOf_eraseDups (items : List β) :
    items.eraseDups.Pairwise fun a b => items.idxOf a < items.idxOf b := by
  induction items using List.reverseRecOn with
  | nil => exact List.Pairwise.nil
  | append_singleton items item ih =>
    -- Where a list goes on, what has occurred in it keeps its place.
    have hplace : ∀ a ∈ items.eraseDups, (items ++ [item]).idxOf a = items.idxOf a :=
      fun a ha => List.idxOf_append_of_mem (List.mem_eraseDups.mp ha)
    have hbefore : items.eraseDups.Pairwise fun a b =>
        (items ++ [item]).idxOf a < (items ++ [item]).idxOf b := by
      refine ih.imp_of_mem ?_
      intro a b ha hb hlt
      rwa [hplace a ha, hplace b hb]
    rw [eraseDups_concat]
    by_cases h : item ∈ items
    · rw [if_pos h]
      exact hbefore
    · rw [if_neg h, List.pairwise_append]
      refine ⟨hbefore, List.pairwise_singleton _ _, ?_⟩
      intro a ha b hb
      rw [List.mem_singleton.mp hb, hplace a ha, List.idxOf_append_of_notMem h]
      exact Nat.lt_add_right _ (List.idxOf_lt_length_iff.mpr (List.mem_eraseDups.mp ha))

/-- What is left without duplicates has none. -/
theorem nodup_eraseDups (items : List β) : items.eraseDups.Nodup :=
  (pairwise_idxOf_eraseDups items).imp fun {a b} hlt (heq : a = b) =>
    Nat.lt_irrefl _ (heq ▸ hlt)

end FirstOccurrences

/-! ## Sorting -/

/-- A sorted list is in order, and what is tied in it stands as it did before. -/
theorem pairwise_mergeSort_of_pairwise {β : Type} {le : β → β → Bool}
    (trans : ∀ a b c, le a b = true → le b c = true → le a c = true)
    (total : ∀ a b, (le a b || le b a) = true) {R : β → β → Prop} {items : List β}
    (h : items.Pairwise R) :
    (items.mergeSort le).Pairwise fun a b => le a b = true ∧ (le b a = true → R a b) := by
  have hsorted := List.pairwise_mergeSort trans total items
  refine List.pairwise_iff_forall_sublist.mpr ?_
  intro a b hab
  have hle : le a b = true := List.pairwise_iff_forall_sublist.mp hsorted hab
  refine ⟨hle, ?_⟩
  intro htied
  -- The items tied with `a` are a sorted part of the list, so that sorting leaves them alone.
  let tied := fun item => le a item && le item a
  have hpart : (items.filter tied).Pairwise fun x y => le x y = true := by
    refine List.pairwise_of_forall_mem_list ?_
    intro x hx y hy
    have hxa : tied x = true := (List.mem_filter.mp hx).2
    have hya : tied y = true := (List.mem_filter.mp hy).2
    exact trans x a y (Bool.and_eq_true_iff.mp hxa).2 (Bool.and_eq_true_iff.mp hya).1
  have hsub := (List.sublist_mergeSort trans total hpart List.filter_sublist).filter tied
  rw [List.filter_filter] at hsub
  simp only [Bool.and_self] at hsub
  have hsame : items.filter tied = (items.mergeSort le).filter tied :=
    hsub.eq_of_length ((List.mergeSort_perm items le).symm.filter tied).length_eq
  have hself : le a a = true := by simpa using total a a
  have hpair : [a, b].Sublist ((items.mergeSort le).filter tied) := by
    simpa [tied, hself, hle, htied] using hab.filter tied
  rw [← hsame] at hpair
  exact List.pairwise_iff_forall_sublist.mp h (hpair.trans List.filter_sublist)

/-! ## Counting -/

namespace Tally

variable {tally : Tally} {kind : Option String}

/-- The tally of some kinds, counted one after the other. -/
def ofKinds (kinds : List (Option String)) : Tally :=
  kinds.foldl (fun tally kind => tally.count kind 1) []

/-- One more kind at the end is counted last. -/
theorem ofKinds_concat (kinds : List (Option String)) (kind : Option String) :
    ofKinds (kinds ++ [kind]) = (ofKinds kinds).count kind 1 :=
  List.foldl_append

/-- A kind that is counted has an entry, and the others keep theirs. -/
theorem mem_keys_count (kind other : Option String) (n : Nat) (tally : Tally) :
    other ∈ (tally.count kind n).map Prod.fst ↔ other = kind ∨ other ∈ tally.map Prod.fst := by
  induction tally with
  | nil => simp [count]
  | cons entry rest ih =>
    obtain ⟨k, m⟩ := entry
    unfold count
    by_cases hk : k = kind
    · simp [hk]
    · simp only [hk, ↓reduceIte, List.map_cons, List.mem_cons, ih]
      tauto

/-- Counting a kind twice is counting it once for both. -/
theorem count_count (kind : Option String) (m n : Nat) (tally : Tally) :
    (tally.count kind m).count kind n = tally.count kind (m + n) := by
  induction tally with
  | nil => simp [count]
  | cons entry rest ih =>
    obtain ⟨k, l⟩ := entry
    by_cases hk : k = kind
    · simp [count, hk, Nat.add_assoc]
    · simp [count, hk, ih]

/-- A kind that has an entry may be counted before another one or after it. -/
theorem count_comm (h : kind ∈ tally.map Prod.fst) (n : Nat) (other : Option String) (m : Nat) :
    (tally.count kind n).count other m = (tally.count other m).count kind n := by
  -- To count one kind twice is to add the numbers; for two kinds, the tally is searched for both.
  by_cases hother : other = kind
  · rw [hother, count_count, count_count, Nat.add_comm]
  · induction tally with
    | nil => cases h
    | cons entry rest ih =>
      obtain ⟨k, l⟩ := entry
      by_cases hk : k = kind
      · -- The entry of `kind` comes first, so that `other` is counted behind it.
        simp [count, hk, Ne.symm hother]
      · have hrest : kind ∈ rest.map Prod.fst := by
          rcases List.mem_cons.mp h with heq | hmem
          · exact absurd heq.symm hk
          · exact hmem
        by_cases hk' : k = other
        · simp [count, hk', hother]
        · simp [count, hk, hk', ih hrest]

/-- A kind that has an entry may be counted before a tally is taken in or after it. -/
theorem merge_count_left (h : kind ∈ tally.map Prod.fst) (n : Nat) (other : Tally) :
    (tally.count kind n).merge other = (tally.merge other).count kind n := by
  unfold merge
  induction other generalizing tally with
  | nil => rfl
  | cons entry rest ih =>
    have hcounted : kind ∈ (tally.count entry.1 entry.2).map Prod.fst :=
      (mem_keys_count _ _ _ _).mpr (.inr h)
    rw [List.foldl_cons, List.foldl_cons, count_comm h]
    exact ih hcounted

/-- Counting a kind in a tally that is taken in is counting it afterwards. -/
theorem merge_count (kind : Option String) (n : Nat) (other : Tally) :
    tally.merge (other.count kind n) = (tally.merge other).count kind n := by
  induction other generalizing tally with
  | nil => rfl
  | cons entry rest ih =>
    obtain ⟨k, m⟩ := entry
    -- What was counted in the other tally is counted when its entry comes up.
    by_cases hk : k = kind
    · subst hk
      have hcounted : k ∈ (tally.count k m).map Prod.fst :=
        (mem_keys_count _ _ _ _).mpr (.inl rfl)
      have hmerge := merge_count_left hcounted n rest
      rw [count_count] at hmerge
      simp only [count, ↓reduceIte]
      exact hmerge
    · simp only [count, hk, ↓reduceIte]
      exact ih

/-- Taking in the tally of further kinds is going on to count them. -/
theorem merge_ofKinds (kinds others : List (Option String)) :
    (ofKinds kinds).merge (ofKinds others) = ofKinds (kinds ++ others) := by
  induction others using List.reverseRecOn with
  | nil => rw [List.append_nil]; rfl
  | append_singleton others kind ih =>
    rw [ofKinds_concat, merge_count, ih, ← List.append_assoc, ofKinds_concat]

/-- Taking in the tallies of several lists is counting through all of them. -/
theorem foldl_merge_ofKinds (kinds : List (Option String)) (lists : List (List (Option String))) :
    (lists.map ofKinds).foldl merge (ofKinds kinds) = ofKinds (kinds ++ lists.flatten) := by
  induction lists generalizing kinds with
  | nil => simp
  | cons others rest ih =>
    rw [List.map_cons, List.foldl_cons, merge_ofKinds, ih, List.flatten_cons, List.append_assoc]

/-! ## The entries of a tally -/

/-- Counting a kind once more where every kind of a list has an entry. -/
private theorem count_map {kinds : List (Option String)} (hnodup : kinds.Nodup)
    (f : Option String → Nat) (kind : Option String) (n : Nat) :
    count kind n (kinds.map fun k => (k, f k)) =
      if kind ∈ kinds then kinds.map fun k => (k, if k = kind then f k + n else f k)
      else kinds.map (fun k => (k, f k)) ++ [(kind, n)] := by
  induction kinds with
  | nil => rfl
  | cons k rest ih =>
    obtain ⟨hfresh, hrest⟩ := List.nodup_cons.mp hnodup
    by_cases hk : k = kind
    · subst hk
      -- The other entries are of other kinds.
      have hothers : rest.map (fun k' => (k', f k')) =
          rest.map fun k' => (k', if k' = k then f k' + n else f k') := by
        refine List.map_congr_left ?_
        intro k' hk'
        have hne : k' ≠ k := fun heq => hfresh (heq ▸ hk')
        rw [if_neg hne]
      simp [count, hothers]
    · have hmem : kind ∈ k :: rest ↔ kind ∈ rest := by simp [Ne.symm hk]
      simp only [List.map_cons, count, hk, ↓reduceIte, ih hrest, hmem]
      split
      · rfl
      · rfl

/-- The tally of some kinds has an entry for each of them, with the number of its
    occurrences, in the order of first occurrence. -/
theorem ofKinds_eq (kinds : List (Option String)) :
    ofKinds kinds = kinds.eraseDups.map fun kind => (kind, kinds.count kind) := by
  induction kinds using List.reverseRecOn with
  | nil => rfl
  | append_singleton kinds kind ih =>
    -- One more kind at the end adds one to the count of this kind.
    have hcount : ∀ k, (kinds ++ [kind]).count k =
        if k = kind then kinds.count k + 1 else kinds.count k := by
      intro k
      rw [List.count_append, List.count_singleton]
      by_cases hk : k = kind
      · simp [hk]
      · simp [hk, Ne.symm hk]
    rw [ofKinds_concat, ih, count_map (nodup_eraseDups kinds), eraseDups_concat]
    simp only [List.mem_eraseDups, hcount]
    by_cases h : kind ∈ kinds
    · rw [if_pos h, if_pos h]
    · -- A new kind has not been counted before, and the old ones are other kinds.
      have hold : kinds.eraseDups.map (fun k => (k, kinds.count k)) = kinds.eraseDups.map fun k =>
          (k, if k = kind then kinds.count k + 1 else kinds.count k) := by
        refine List.map_congr_left ?_
        intro k hk
        have hne : k ≠ kind := fun heq => h (heq ▸ List.mem_eraseDups.mp hk)
        rw [if_neg hne]
      rw [if_neg h, if_neg h, List.map_append, hold]
      simp [List.count_eq_zero_of_not_mem h]

/-- The entries of a tally by frequency: those of the same count in the order in which their
    kinds first occur. -/
theorem pairwise_mostCommon (kinds : List (Option String)) :
    (ofKinds kinds).mostCommon.Pairwise fun entry later =>
      later.2 ≤ entry.2 ∧
        (entry.2 = later.2 → kinds.idxOf entry.1 < kinds.idxOf later.1) := by
  -- The sort is stable, so entries with the same count stay in the order of their first
  -- occurrences.
  have horder : (ofKinds kinds).Pairwise fun entry later =>
      kinds.idxOf entry.1 < kinds.idxOf later.1 := by
    rw [ofKinds_eq, List.pairwise_map]
    exact pairwise_idxOf_eraseDups kinds
  let le := fun entry later : Option String × Nat => decide (later.2 ≤ entry.2)
  have htrans : ∀ a b c, le a b = true → le b c = true → le a c = true := by
    intro a b c hab hbc
    simp only [le, decide_eq_true_eq] at hab hbc ⊢
    exact Nat.le_trans hbc hab
  have htotal : ∀ a b, (le a b || le b a) = true := by
    intro a b
    simp only [le, Bool.or_eq_true, decide_eq_true_eq]
    exact Nat.le_total b.2 a.2
  have hsorted := pairwise_mergeSort_of_pairwise htrans htotal horder
  refine hsorted.imp ?_
  intro entry later ⟨hle, htied⟩
  simp only [le, decide_eq_true_eq] at hle htied
  exact ⟨hle, fun heq => htied (Nat.le_of_eq heq)⟩

/-- Sorting a tally by frequency keeps its entries. -/
theorem mem_mostCommon {entry : Option String × Nat} :
    entry ∈ tally.mostCommon ↔ entry ∈ tally :=
  (List.mergeSort_perm tally _).mem_iff

end Tally

end TreeWalk
