import Mathlib.Data.List.TakeWhile
import TreeWalk.Console.Markup
import TreeWalk.Proofs.Documents

/-! # Text that is no markup

Text for the console is taken for markup, but what holds no tag and no escaped bracket comes out
as it is.

## Key results

* `Markup.strip_append` passes over text without markup.
* `Markup.plain_eq_iff` says that exactly the texts without markup come out as they are.
* `Markup.plain_styled` takes off the tags around a text without markup.
-/

namespace TreeWalk

/-- A text falls into the part that is taken while a condition holds and the rest. -/
theorem exists_eq_takeWhile_append (p : Char → Bool) (text : List Char) :
    ∃ rest, text = text.takeWhile p ++ rest ∧ text.drop (text.takeWhile p).length = rest ∧
      ∀ c ∈ rest.head?, p c = false := by
  refine ⟨text.dropWhile p, List.takeWhile_append_dropWhile.symm, ?_, ?_⟩
  · have hsplit := List.takeWhile_append_dropWhile (p := p) (l := text)
    calc text.drop (text.takeWhile p).length
        = (text.takeWhile p ++ text.dropWhile p).drop (text.takeWhile p).length := by rw [hsplit]
      _ = text.dropWhile p := List.drop_left
  · intro c hc
    have hstop := List.head?_dropWhile_not p text
    rw [Option.mem_def.mp hc] at hstop
    simpa using hstop

/-- What is taken goes on to where the condition first fails. -/
theorem takeWhile_append_cons {p : Char → Bool} {first rest : List Char} {c : Char}
    (hfirst : ∀ d ∈ first, p d = true) (hc : p c = false) :
    (first ++ c :: rest).takeWhile p = first := by
  rw [List.takeWhile_append_of_pos hfirst, List.takeWhile_cons_of_neg (by simp [hc]),
    List.append_nil]

namespace Markup

/-- A text without markup: no bracket in it opens a tag or stands behind a backslash. -/
def Unmarked (text : List Char) : Prop :=
  ∀ before after, text = before ++ '[' :: after →
    inside? after = none ∧ before.getLast? ≠ some '\\'

/-- A text without brackets is without markup. -/
theorem unmarked_of_not_mem {text : List Char} (h : '[' ∉ text) : Unmarked text := by
  rintro before after rfl
  simp at h

/-- What is left of a text without markup when its start is taken away is without markup. -/
theorem Unmarked.of_append {first rest : List Char} (h : Unmarked (first ++ rest)) :
    Unmarked rest := by
  rintro before after rfl
  obtain ⟨hinside, hlast⟩ := h (first ++ before) after (by simp)
  refine ⟨hinside, ?_⟩
  intro hbackslash
  rw [List.getLast?_append, hbackslash] at hlast
  exact hlast rfl

/-- A start without brackets adds no markup to a text. -/
theorem Unmarked.of_start {start text : List Char} (hbracket : '[' ∉ start)
    (hlast : start.getLast? ≠ some '\\') (h : Unmarked text) : Unmarked (start ++ text) := by
  intro before after heq
  rcases List.append_eq_append_iff.mp heq with ⟨middle, hbefore, htext⟩ | ⟨middle, hstart, htext⟩
  · -- The bracket lies in the text.
    obtain ⟨hinside, hbackslash⟩ := h middle after htext
    refine ⟨hinside, ?_⟩
    rw [hbefore, List.getLast?_append]
    cases hmiddle : middle.getLast? with
    | none => exact hlast
    | some c => rwa [hmiddle] at hbackslash
  · cases middle with
    | nil =>
      -- It is the first character of the text.
      rw [List.append_nil] at hstart
      obtain ⟨hinside, -⟩ := h [] after htext.symm
      exact ⟨hinside, hstart ▸ hlast⟩
    | cons c middle =>
      obtain ⟨rfl, -⟩ := List.cons.inj htext
      exact absurd (by rw [hstart]; simp) hbracket

/-! ## Tags -/

/-- The inside of a tag is what stands in front of its closing bracket. -/
theorem eq_of_inside?_eq_some {rest inside beyond : List Char}
    (h : inside? rest = some (inside, beyond)) : rest = inside ++ ']' :: beyond := by
  cases rest with
  | nil => cases h
  | cons c rest =>
    obtain ⟨tail, hsplit, hdrop, -⟩ :=
      exists_eq_takeWhile_append (fun d => d != ']' && d != '[') rest
    rw [inside?] at h
    obtain ⟨hopen, heq⟩ := Option.ite_none_right_eq_some.mp h
    obtain ⟨rfl, rfl⟩ := Prod.mk.inj (Option.some.inj heq)
    -- The text inside goes on up to the first bracket, which has to be a closing one.
    rw [hdrop, Bool.and_eq_true, beq_iff_eq] at hopen
    cases tail with
    | nil => cases hopen.2
    | cons d tail =>
      obtain rfl := Option.some.inj hopen.2
      rw [← List.drop_drop, hdrop, List.cons_append, List.drop_one, List.tail_cons, ← hsplit]

/-- No tag reaches over a bracket that opens another one. -/
theorem inside?_append_bracket {rest : List Char} (h : inside? rest = none) (more : List Char) :
    inside? (rest ++ '[' :: more) = none := by
  cases rest with
  | nil =>
    have hbracket : (decide ('a' ≤ '[') && decide ('[' ≤ 'z') || '[' == '#' || '[' == '/' ||
        '[' == '@') = false := by
      decide
    simp only [List.nil_append, inside?, hbracket, Bool.false_and, Bool.false_eq_true, ↓reduceIte]
  | cons c rest =>
    let p : Char → Bool := fun d => d != ']' && d != '['
    obtain ⟨tail, hsplit, hdrop, hstop⟩ := exists_eq_takeWhile_append p rest
    have hbody : ∀ d ∈ rest.takeWhile p, p d = true := fun d hd => List.mem_takeWhile_imp hd
    -- The inside ends where it ended before, or at the new bracket.
    have hhead : ((rest ++ '[' :: more).drop ((rest ++ '[' :: more).takeWhile p).length).head? =
        some (tail.head?.getD '[') := by
      cases tail with
      | nil =>
        rw [List.append_nil] at hsplit
        rw [← hsplit] at hbody
        rw [takeWhile_append_cons hbody (by decide), List.drop_left]
        rfl
      | cons d tail =>
        have hnew : rest ++ '[' :: more = rest.takeWhile p ++ d :: (tail ++ '[' :: more) := by
          rw [← List.cons_append, ← List.append_assoc, ← hsplit]
        rw [hnew, takeWhile_append_cons hbody (hstop d rfl), List.drop_left]
        rfl
    rw [inside?] at h
    have hclosed := ite_eq_right_iff.mp h
    rw [List.cons_append, inside?, if_neg]
    intro hopen
    rw [Bool.and_eq_true, hhead] at hopen
    have hnone := hclosed (by
      rw [Bool.and_eq_true, hdrop]
      refine ⟨hopen.1, ?_⟩
      cases tail with
      | nil => exact absurd hopen.2 (by decide)
      | cons d tail => exact hopen.2)
    cases hnone

/-! ## Stripping -/

section

variable {position fuel k : Nat} {opened : List String} {after : List Char}

/-- A run of backslashes ends at the first other character. -/
theorem takeWhile_backslashes {c : Char} (hc : c ≠ '\\') :
    (List.replicate k '\\' ++ c :: after).takeWhile (· == '\\') = List.replicate k '\\' := by
  refine takeWhile_append_cons ?_ (by simpa using hc)
  intro d hd
  simp [List.eq_of_mem_replicate hd]

/-- Behind the backslashes comes the rest. -/
theorem drop_backslashes (c : Char) :
    (List.replicate k '\\' ++ c :: after).drop k = c :: after :=
  List.drop_left' List.length_replicate

/-- A character that is no bracket is kept, with the backslashes before it. -/
theorem strip_of_ne {c : Char} (hc : c ≠ '\\') (hbracket : c ≠ '[') :
    strip position opened (fuel + 1) (List.replicate k '\\' ++ c :: after) = do
      let tail ← strip (position + k + 1) opened fuel after
      return List.replicate k '\\' ++ c :: tail := by
  have hne : (c != '[') = true := by simpa using hbracket
  simp only [strip, takeWhile_backslashes hc, List.length_replicate, drop_backslashes, hne,
    ↓reduceIte]

/-- A bracket that opens no tag is kept without one of the backslashes before it. -/
theorem strip_of_inside?_eq_none (h : inside? after = none) :
    strip position opened (fuel + 1) (List.replicate k '\\' ++ '[' :: after) = do
      let tail ← strip (position + k + 1) opened fuel after
      return List.replicate (k - 1) '\\' ++ '[' :: tail := by
  have hne : '[' ≠ '\\' := by decide
  simp only [strip, takeWhile_backslashes hne, List.length_replicate, drop_backslashes,
    bne_self_eq_false, Bool.false_eq_true, ↓reduceIte, h]

/-- A tag is kept or taken off as the number of backslashes before it is odd or even. -/
theorem strip_of_inside?_eq_some {inside beyond : List Char}
    (h : inside? after = some (inside, beyond)) :
    strip position opened (fuel + 1) (List.replicate k '\\' ++ '[' :: after) =
      if k % 2 = 1 then do
        let tail ← strip (position + k + inside.length + 2) opened fuel beyond
        return List.replicate (k / 2) '\\' ++ '[' :: inside ++ ']' :: tail
      else do
        let opened ← apply (position + k) inside opened
        return List.replicate (k / 2) '\\' ++
          (← strip (position + k + inside.length + 2) opened fuel beyond) := by
  have hne : '[' ≠ '\\' := by decide
  simp only [strip, takeWhile_backslashes hne, List.length_replicate, drop_backslashes,
    bne_self_eq_false, Bool.false_eq_true, ↓reduceIte, h]

end

/-- Backslashes at the end of a text are kept. -/
theorem strip_replicate (position fuel k : Nat) (opened : List String) :
    strip position opened (fuel + 1) (List.replicate k '\\') = .ok (List.replicate k '\\') := by
  have htake : (List.replicate k '\\').takeWhile (· == '\\') = List.replicate k '\\' := by
    simp
  rw [strip, htake, List.length_replicate, List.drop_eq_nil_of_le (by simp)]
  rfl

/-- A text is a run of backslashes, with something else behind it if it goes on. -/
theorem exists_backslashes (text : List Char) :
    (∃ k, text = List.replicate k '\\') ∨
      ∃ k c after, c ≠ '\\' ∧ text = List.replicate k '\\' ++ c :: after := by
  -- A text starts with as many backslashes as it has.
  obtain ⟨rest, hsplit, -, hstop⟩ := exists_eq_takeWhile_append (· == '\\') text
  have hrun : text.takeWhile (· == '\\') =
      List.replicate (text.takeWhile (· == '\\')).length '\\' := by
    refine List.eq_replicate_of_mem ?_
    intro c hc
    simpa using List.mem_takeWhile_imp hc
  rw [hrun] at hsplit
  cases rest with
  | nil =>
    rw [List.append_nil] at hsplit
    exact .inl ⟨_, hsplit⟩
  | cons c after =>
    exact .inr ⟨_, c, after, by simpa using hstop c rfl, hsplit⟩

/-- What can follow a text without any tag coming about where they meet. -/
def Joins (text rest : List Char) : Prop :=
  rest = [] ∨ rest.head? = some '[' ∧ text.getLast? ≠ some '\\'

/-- What may be joined to a text may be joined to an end of it. -/
theorem Joins.of_append {first text rest : List Char} (h : Joins (first ++ text) rest) :
    Joins text rest := by
  rcases h with h | ⟨hrest, hlast⟩
  · exact .inl h
  · refine .inr ⟨hrest, ?_⟩
    intro hbackslash
    rw [List.getLast?_append, hbackslash] at hlast
    exact hlast rfl

/-- A bracket that is not closed in a text is not closed by what is joined to it. -/
theorem Joins.inside?_append {text rest : List Char} (h : Joins text rest)
    (hinside : inside? text = none) : inside? (text ++ rest) = none := by
  rcases h with rfl | ⟨hrest, -⟩
  · rwa [List.append_nil]
  · cases rest with
    | nil => cases hrest
    | cons c more =>
      obtain rfl := Option.some.inj hrest
      exact inside?_append_bracket hinside more

/-- Text without markup is passed over as it stands. -/
theorem strip_append {text rest : List Char} (opened : List String) (h : Unmarked text)
    (hjoins : Joins text rest) (position : Nat) {fuel : Nat}
    (hfuel : (text ++ rest).length < fuel) :
    ∃ fuel', rest.length < fuel' ∧ strip position opened fuel (text ++ rest) =
      (text ++ ·) <$> strip (position + text.length) opened fuel' rest := by
  -- Each round takes a run of backslashes and the character behind it.
  induction fuel generalizing text position with
  | zero => exact absurd hfuel (Nat.not_lt_zero _)
  | succ fuel ih =>
    rcases exists_backslashes text with ⟨k, rfl⟩ | ⟨k, c, after, hc, rfl⟩
    · cases k with
      | zero =>
        refine ⟨fuel + 1, by simpa using hfuel, ?_⟩
        simp only [List.replicate_zero, List.nil_append, List.length_nil, Nat.add_zero, id_map']
      | succ k =>
        -- Behind a backslash nothing follows.
        rcases hjoins with rfl | ⟨-, hlast⟩
        · refine ⟨1, Nat.one_pos, ?_⟩
          rw [List.append_nil, strip_replicate]
          simp [strip]
          rfl
        · simp [List.getLast?_replicate] at hlast
    · have hcut : List.replicate k '\\' ++ c :: after =
          (List.replicate k '\\' ++ [c]) ++ after := by
        simp
      have hafter : Unmarked after := by
        rw [hcut] at h
        exact h.of_append
      have hjoined : Joins after rest := by
        rw [hcut] at hjoins
        exact hjoins.of_append
      have hposition : position + (List.replicate k '\\' ++ c :: after).length =
          position + k + 1 + after.length := by
        simp only [List.length_append, List.length_replicate, List.length_cons]
        omega
      obtain ⟨fuel', hfuel', hstrip⟩ := ih hafter hjoined (position + k + 1) (by
        simp only [List.length_append, List.length_replicate, List.length_cons] at hfuel ⊢
        omega)
      refine ⟨fuel', hfuel', ?_⟩
      rw [List.append_assoc, List.cons_append, hposition]
      by_cases hbracket : c = '['
      · -- The bracket opens no tag, and no backslash stands before it.
        obtain ⟨hinside, hlast⟩ := h (List.replicate k '\\') after (by rw [hbracket])
        have hk : k = 0 := by
          cases k with
          | zero => rfl
          | succ k => simp [List.getLast?_replicate] at hlast
        rw [hbracket, strip_of_inside?_eq_none (hjoined.inside?_append hinside), hstrip, hk]
        cases strip (position + 0 + 1 + after.length) opened fuel' rest <;> rfl
      · rw [strip_of_ne hc hbracket, hstrip]
        cases strip (position + k + 1 + after.length) opened fuel' rest with
        | error error => rfl
        | ok tail =>
          show Except.ok _ = Except.ok _
          simp

/-- A text without markup comes out as it is. -/
theorem plain_of_unmarked {text : List Char} (h : Unmarked text) : plain text = .ok text := by
  have hlength : (text ++ []).length < text.length + 1 := by
    rw [List.append_nil]
    exact Nat.lt_succ_self _
  obtain ⟨fuel, hfuel, hstrip⟩ := strip_append [] h (.inl rfl) 0 hlength
  obtain ⟨fuel, rfl⟩ := Nat.exists_eq_succ_of_ne_zero (Nat.pos_iff_ne_zero.mp hfuel)
  rw [List.append_nil] at hstrip
  rw [plain, hstrip, strip]
  simp
  rfl

/-- A bracket that opens no tag, with no backslash before it, adds no markup. -/
theorem Unmarked.append_cons {k : Nat} {c : Char} {after : List Char} (hc : c ≠ '\\')
    (h : Unmarked after) (hbracket : c = '[' → inside? after = none ∧ k = 0) :
    Unmarked (List.replicate k '\\' ++ c :: after) := by
  intro before rest heq
  rcases List.append_eq_append_iff.mp heq with ⟨run, hbefore, hrun⟩ | ⟨run, hbefore, hrun⟩
  · -- The bracket lies behind the backslashes.
    cases run with
    | nil =>
      obtain ⟨rfl, rfl⟩ := List.cons.inj hrun
      obtain ⟨hinside, rfl⟩ := hbracket rfl
      refine ⟨hinside, ?_⟩
      rw [hbefore]
      simp
    | cons d run =>
      obtain ⟨rfl, rfl⟩ := List.cons.inj hrun
      obtain ⟨hinside, hlast⟩ := h run rest rfl
      refine ⟨hinside, ?_⟩
      rw [hbefore, List.getLast?_append]
      cases run with
      | nil =>
        intro hbackslash
        exact hc (Option.some.inj hbackslash)
      | cons e run =>
        rw [List.getLast?_cons_cons]
        have hsome := List.getLast?_eq_some_getLast (List.cons_ne_nil e run)
        rw [hsome] at hlast ⊢
        exact hlast
  · -- It cannot be one of the backslashes.
    cases run with
    | nil =>
      obtain ⟨rfl, rfl⟩ := List.cons.inj hrun
      obtain ⟨hinside, rfl⟩ := hbracket rfl
      rw [List.append_nil] at hbefore
      refine ⟨hinside, ?_⟩
      rw [← hbefore]
      simp
    | cons d run =>
      obtain ⟨rfl, -⟩ := List.cons.inj hrun
      have hmem : '[' ∈ List.replicate k '\\' := by
        rw [hbefore]
        simp
      exact absurd (List.eq_of_mem_replicate hmem) (by decide)

/-- What is left after stripping lies within the text, and a text that has kept its length was
    without markup. -/
theorem sublist_of_strip {position fuel : Nat} {opened : List String} {rest out : List Char}
    (h : strip position opened fuel rest = .ok out) (hfuel : rest.length < fuel) :
    out.Sublist rest ∧ (out.length = rest.length → Unmarked rest) := by
  induction fuel generalizing position opened rest out with
  | zero => exact absurd hfuel (Nat.not_lt_zero _)
  | succ fuel ih =>
    rcases exists_backslashes rest with ⟨k, rfl⟩ | ⟨k, c, after, hc, rfl⟩
    · rw [strip_replicate] at h
      obtain rfl := Except.ok.inj h
      refine ⟨List.Sublist.refl _, fun _ => unmarked_of_not_mem ?_⟩
      intro hmem
      exact absurd (List.eq_of_mem_replicate hmem) (by decide)
    · have hrun : ∀ {n : Nat}, n ≤ k →
          (List.replicate n '\\').Sublist (List.replicate k '\\') := by
        intro n hn
        exact (List.replicate_sublist_replicate '\\').mpr hn
      simp only [List.length_append, List.length_replicate, List.length_cons] at hfuel ⊢
      by_cases hbracket : c = '['
      · rw [hbracket] at h ⊢
        cases hinside : inside? after with
        | none =>
          rw [strip_of_inside?_eq_none hinside] at h
          obtain ⟨tail, htail, hout⟩ := exists_of_bind_eq_ok h
          obtain rfl := Except.ok.inj hout
          obtain ⟨hsub, hsame⟩ := ih htail (by omega)
          have hle := hsub.length_le
          refine ⟨(hrun (Nat.sub_le k 1)).append (hsub.cons_cons '['), fun heq => ?_⟩
          -- Nothing is lost only if there was no backslash before the bracket.
          simp only [List.length_append, List.length_replicate, List.length_cons] at heq
          exact (hsame (by omega)).append_cons (by decide) fun _ => ⟨hinside, by omega⟩
        | some tag =>
          obtain ⟨inside, beyond⟩ := tag
          obtain rfl := eq_of_inside?_eq_some hinside
          simp only [List.length_append, List.length_cons] at hfuel ⊢
          rw [strip_of_inside?_eq_some hinside] at h
          by_cases hodd : k % 2 = 1
          · rw [if_pos hodd] at h
            obtain ⟨tail, htail, hout⟩ := exists_of_bind_eq_ok h
            obtain rfl := Except.ok.inj hout
            obtain ⟨hsub, -⟩ := ih htail (by omega)
            have hle := hsub.length_le
            have htag := ((hsub.cons_cons ']').append_left inside).cons_cons '['
            rw [List.append_assoc, List.cons_append]
            refine ⟨(hrun (Nat.div_le_self k 2)).append htag, fun heq => ?_⟩
            -- One backslash at least has gone.
            simp only [List.length_append, List.length_replicate, List.length_cons] at heq
            omega
          · rw [if_neg hodd] at h
            obtain ⟨opened', -, hrest⟩ := exists_of_bind_eq_ok h
            obtain ⟨tail, htail, hout⟩ := exists_of_bind_eq_ok hrest
            obtain rfl := Except.ok.inj hout
            obtain ⟨hsub, -⟩ := ih htail (by omega)
            have hle := hsub.length_le
            have htag := hsub.trans (List.sublist_append_right ('[' :: inside ++ [']']) beyond)
            rw [List.append_assoc, List.singleton_append, List.cons_append] at htag
            refine ⟨(hrun (Nat.div_le_self k 2)).append htag, fun heq => ?_⟩
            -- The tag has gone.
            simp only [List.length_append, List.length_replicate] at heq
            omega
      · rw [strip_of_ne hc hbracket] at h
        obtain ⟨tail, htail, hout⟩ := exists_of_bind_eq_ok h
        obtain rfl := Except.ok.inj hout
        obtain ⟨hsub, hsame⟩ := ih htail (by omega)
        have hle := hsub.length_le
        refine ⟨(hrun (Nat.le_refl k)).append (hsub.cons_cons c), fun heq => ?_⟩
        simp only [List.length_append, List.length_replicate, List.length_cons] at heq
        exact (hsame (by omega)).append_cons hc fun heq => absurd heq hbracket

/-- What comes out lies within the text. -/
theorem sublist_of_plain {text out : List Char} (h : plain text = .ok out) : out.Sublist text :=
  (sublist_of_strip h (Nat.lt_succ_self _)).1

/-- A text of which nothing is lost is without markup. -/
theorem unmarked_of_plain {text out : List Char} (h : plain text = .ok out)
    (hlength : out.length = text.length) : Unmarked text :=
  (sublist_of_strip h (Nat.lt_succ_self _)).2 hlength

/-- Exactly the texts without markup come out as they are. -/
theorem plain_eq_iff {text : List Char} : plain text = .ok text ↔ Unmarked text :=
  ⟨fun h => unmarked_of_plain h rfl, plain_of_unmarked⟩

/-- A tag without a backslash before it is taken off. -/
theorem strip_tag {position fuel : Nat} {opened : List String}
    {after inside beyond : List Char}
    (h : inside? after = some (inside, beyond)) :
    strip position opened (fuel + 1) ('[' :: after) =
      (apply position inside opened >>= fun opened =>
        strip (position + inside.length + 2) opened fuel beyond) := by
  -- A tag without backslashes is the case of none.
  have hstrip : strip position opened (fuel + 1) (List.replicate 0 '\\' ++ '[' :: after) = _ :=
    strip_of_inside?_eq_some h
  simp only [List.replicate_zero, List.nil_append, ↓reduceIte, Nat.zero_mod, Nat.zero_ne_one,
    Nat.add_zero, Nat.zero_div] at hstrip
  rw [hstrip]
  cases apply position inside opened with
  | error error => rfl
  | ok opened =>
    show (strip _ opened fuel beyond >>= fun tail => pure tail) = _
    rw [bind_pure]
    rfl

/-- The inside of a tag ends at the first closing bracket. -/
theorem inside?_cons {c : Char} {body rest : List Char}
    (hc : ('a' ≤ c ∧ c ≤ 'z') ∨ c = '/') (hbody : ∀ d ∈ body, d ≠ ']' ∧ d ≠ '[') :
    inside? (c :: (body ++ ']' :: rest)) = some (c :: body, rest) := by
  have htake : (body ++ ']' :: rest).takeWhile (fun d => d != ']' && d != '[') = body :=
    takeWhile_append_cons (fun d hd => by simp [hbody d hd]) (by decide)
  have hopens : (decide ('a' ≤ c) && decide (c ≤ 'z') || c == '#' || c == '/' || c == '@') =
      true := by
    rcases hc with hc | rfl
    · simp [hc]
    · decide
  rw [inside?, htake, List.drop_left, hopens, if_pos (by simp), ← List.drop_drop, List.drop_left]
  rfl

section

variable {style : List Char} (hletters : ∀ c ∈ style, 'a' ≤ c ∧ c ≤ 'z')

include hletters

/-- The name of a style is not cut off. -/
theorem takeWhile_style (start : List Char) (hstart : '=' ∉ start) :
    (start ++ style).takeWhile (· != '=') = start ++ style := by
  rw [List.takeWhile_eq_self_iff]
  intro c hc
  refine bne_iff_ne.mpr ?_
  rintro rfl
  rcases List.mem_append.mp hc with hc | hc
  · exact hstart hc
  · exact absurd (hletters _ hc).1 (by decide)

/-- There are no blanks around the name of a style. -/
theorem strip_style : Blank.strip style = style := by
  -- Small letters are no blanks; the blanks are a table, and the codes of the letters few.
  have hcodes : ∀ n < 123, 97 ≤ n →
      CharRanges.search Blank.blanks n 0 Blank.blanks.size (Blank.blanks.size + 1) = false := by
    decide
  have hnonblank : ∀ c ∈ style, isBlank c = false := by
    intro c hc
    obtain ⟨hle, hge⟩ := hletters c hc
    have hle : 97 ≤ c.toNat := hle
    have hge : c.toNat ≤ 122 := hge
    exact hcodes c.toNat (by omega) hle
  have hkept : ∀ {chars : List Char}, (∀ c ∈ chars, c ∈ style) →
      chars.dropWhile isBlank = chars := by
    intro chars hchars
    cases chars with
    | nil => rfl
    | cons c chars =>
      refine List.dropWhile_cons_of_neg ?_
      rw [hnonblank c (hchars c List.mem_cons_self)]
      decide
  rw [Blank.strip, hkept fun c hc => hc, Blank.stripEnd, hkept fun c hc => List.mem_reverse.mp hc,
    List.reverse_reverse]

/-- The tag of a style opens it. -/
theorem apply_style (hne : style ≠ []) (position : Nat) (opened : List String) :
    apply position style opened = .ok (StyleName.normalize style :: opened) := by
  have hname := takeWhile_style hletters [] (by decide)
  rw [List.nil_append] at hname
  unfold apply
  simp only [hname]
  split
  · exact absurd (hletters '/' List.mem_cons_self).1 (by decide)
  · rfl

/-- The closing tag of a style closes it. -/
theorem apply_close (hne : style ≠ []) (position : Nat) (opened : List String) :
    apply position ('/' :: style) (StyleName.normalize style :: opened) = .ok opened := by
  have hname := takeWhile_style hletters ['/'] (by decide)
  rw [List.singleton_append] at hname
  unfold apply
  simp only [hname, strip_style hletters, List.isEmpty_eq_false_iff.mpr hne, Bool.false_eq_true,
    ↓reduceIte, close?, beq_self_eq_true]

/-- The tags around the end of a text are taken off, if there is no other markup and no backslash
    in front of them. -/
theorem plain_styled (hne : style ≠ []) {before text : List Char} (hbracket : '[' ∉ before)
    (hbefore : before.getLast? ≠ some '\\') (h : Unmarked text)
    (htext : text.getLast? ≠ some '\\') :
    plain (before ++ '[' :: style ++ ']' :: text ++ '[' :: '/' :: style ++ [']']) =
      .ok (before ++ text) := by
  let closing := '[' :: '/' :: (style ++ [']'])
  let styled := '[' :: (style ++ ']' :: (text ++ closing))
  have hsplit : before ++ '[' :: style ++ ']' :: text ++ '[' :: '/' :: style ++ [']'] =
      before ++ styled := by
    simp [styled, closing]
  have hbody : ∀ d ∈ style, d ≠ ']' ∧ d ≠ '[' := by
    intro d hd
    obtain ⟨hle, -⟩ := hletters d hd
    exact ⟨by rintro rfl; exact absurd hle (by decide), by rintro rfl; exact absurd hle (by decide)⟩
  have hopen : inside? (style ++ ']' :: (text ++ closing)) = some (style, text ++ closing) := by
    cases style with
    | nil => exact absurd rfl hne
    | cons c rest =>
      obtain ⟨-, hrest⟩ := List.forall_mem_cons.mp hbody
      exact inside?_cons (.inl (hletters c List.mem_cons_self)) hrest
  have hclose : inside? ('/' :: (style ++ [']'])) = some ('/' :: style, []) :=
    inside?_cons (.inr rfl) hbody
  rw [hsplit, plain]
  -- The text falls into what is before the tags, the opening tag, the text and the closing one.
  obtain ⟨fuel₁, hfuel₁, hstart⟩ := strip_append [] (unmarked_of_not_mem hbracket)
    (.inr ⟨rfl, hbefore⟩ : Joins before styled) 0 (Nat.lt_succ_self _)
  obtain ⟨fuel₁, rfl⟩ := Nat.exists_eq_succ_of_ne_zero (Nat.ne_zero_of_lt hfuel₁)
  have hroom : (text ++ closing).length < fuel₁ := by
    simp only [styled, List.length_cons, List.length_append] at hfuel₁ ⊢
    omega
  obtain ⟨fuel₂, hfuel₂, hmiddle⟩ := strip_append [StyleName.normalize style] h
    (.inr ⟨rfl, htext⟩ : Joins text closing) (0 + before.length + style.length + 2) hroom
  obtain ⟨fuel₂, rfl⟩ : ∃ n, fuel₂ = n + 2 := by
    refine ⟨fuel₂ - 2, ?_⟩
    simp only [closing, List.length_cons] at hfuel₂
    omega
  rw [hstart, strip_tag hopen, apply_style hletters hne]
  show (before ++ ·) <$> strip _ [StyleName.normalize style] fuel₁ (text ++ closing) = _
  rw [hmiddle, strip_tag hclose, apply_close hletters hne]
  show Except.ok (before ++ (text ++ [])) = _
  rw [List.append_nil]

end

end Markup

end TreeWalk
