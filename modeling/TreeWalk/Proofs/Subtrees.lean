import TreeWalk.Proofs.ChildResults
import TreeWalk.Proofs.Course
import TreeWalk.Proofs.Preorder
import TreeWalk.Proofs.Prune

/-! # Walks of subtrees

A walk by a pure step holds, for every node that it comes to, the walk of that node alone: in
one piece, with the way to the node in front of every path.  So what a subtree gives depends
neither on where it hangs nor on what was walked before it.

## Key results

* `Course.Holds` says that a course holds another one at a path, and what follows for the way
  the two end.
* `exists_holds_course` finds the course of every node that is called in that of the root.
* `history_subtree` says so of whole walks.
-/

namespace TreeWalk

variable {ε α β γ : Type}

/-! ## Above and below -/

/-- Whether a moment of the step happens neither at the end of `path` nor below it. -/
def Moment.Outside (path : List PathEntry) (m : Moment ε α) : Prop :=
  ∀ place node, m.position? = some (place, node) → ¬ path <+: place

namespace Moment

/-- What is shifted starts with the path in front. -/
theorem position?_shift (above : List PathEntry) (m : Moment ε α) :
    (m.shift above).position? = m.position?.map fun at' => (above ++ at'.1, at'.2) := by
  cases m <;> rfl

/-- What happens outside a path happens outside the longer one below another entry. -/
theorem Outside.shift {path : List PathEntry} {m : Moment ε α} (h : m.Outside path)
    (entry : PathEntry) : (m.shift [entry]).Outside (entry :: path) := by
  intro place node hposition hprefix
  rw [position?_shift] at hposition
  obtain ⟨⟨place', node'⟩, hposition', heq⟩ := Option.map_eq_some_iff.mp hposition
  obtain ⟨rfl, rfl⟩ := Prod.mk.inj heq
  exact h place' node' hposition' (List.cons_prefix_cons.mp hprefix).2

/-- What happens at the node itself happens outside all that is below. -/
theorem outside_of_root {m : Moment ε α} {node : Value} (h : m.position? = some ([], node))
    (entry : PathEntry) (path : List PathEntry) : m.Outside (entry :: path) := by
  intro place node' hposition hprefix
  obtain ⟨rfl, -⟩ := Prod.mk.inj (Option.some.inj (h.symm.trans hposition))
  cases List.prefix_nil.mp hprefix

/-- What happens below one entry happens outside the paths through another. -/
theorem outside_of_ne {entry entry' : PathEntry} (hne : entry ≠ entry') (m : Moment ε α)
    (path : List PathEntry) : (m.shift [entry']).Outside (entry :: path) := by
  intro place node hposition hprefix
  rw [position?_shift] at hposition
  obtain ⟨⟨place', node'⟩, -, heq⟩ := Option.map_eq_some_iff.mp hposition
  obtain ⟨rfl, rfl⟩ := Prod.mk.inj heq
  exact hne (List.cons_prefix_cons.mp hprefix).1

end Moment

/-! ## Courses that hold another -/

namespace Course

/-- A course with no moments does not break off: whatever breaks off a course shows. -/
def Sound (c : Course ε α β) : Prop :=
  c.moments = [] → ∃ result, c.fin = .ok result

/-- A course holds the course of a visit at a path: its moments are there in one piece, between
    those before and those after.  If the part breaks off so does the whole, at once and by the
    same mishap, and the whole does not break off right after a part that did not.  If names are
    distinct, nothing else happens at the path or below it. -/
structure Holds (distinct : Prop) (whole : Course ε α β) (path : List PathEntry)
    (part : Course ε α γ) (before after : List (Moment ε α)) : Prop where
  moments : whole.moments = before ++ part.moments.map (Moment.shift path) ++ after
  broken : ∀ mishap, part.fin = .error mishap → after = [] ∧ whole.fin = .error (mishap.shift path)
  done : ∀ result, part.fin = .ok result → after = [] → ∃ result, whole.fin = .ok result
  outside : distinct → ∀ m ∈ before ++ after, m.Outside path

/-- A moment of two courses one after the other is one of the first, or of the second if the first
    ends normally. -/
theorem mem_andThen {c : Course ε α β} {next : β → Course ε α γ} {m : Moment ε α} :
    m ∈ (c.andThen next).moments ↔
      m ∈ c.moments ∨ ∃ result, c.fin = .ok result ∧ m ∈ (next result).moments := by
  obtain ⟨moments, fin⟩ := c
  cases fin with
  | ok result => simp [andThen]
  | error mishap => simp [andThen]

/-- To finish adds nothing. -/
theorem mem_andThen_done {c : Course ε α β} {f : β → γ} {m : Moment ε α} :
    m ∈ (c.andThen fun result => .done (f result)).moments ↔ m ∈ c.moments := by
  rw [mem_andThen]
  refine or_iff_left ?_
  rintro ⟨result, -, hm⟩
  exact absurd hm List.not_mem_nil

/-- A course that ends normally goes on with the next one. -/
theorem andThen_of_ok {c : Course ε α β} {result : β} (h : c.fin = .ok result)
    (next : β → Course ε α γ) :
    c.andThen next = ⟨c.moments ++ (next result).moments, (next result).fin⟩ := by
  unfold andThen
  rw [h]

/-- A course that fails is the end of it. -/
theorem andThen_of_error {c : Course ε α β} {mishap : Mishap ε} (h : c.fin = .error mishap)
    (next : β → Course ε α γ) : c.andThen next = ⟨c.moments, .error mishap⟩ := by
  unfold andThen
  rw [h]

/-- What follows on a course that is not without moments is not either. -/
theorem sound_andThen {c : Course ε α β} (h : c.moments ≠ [])
    (next : β → Course ε α γ) : (c.andThen next).Sound := by
  intro hnil
  cases hfin : c.fin with
  | ok result =>
    rw [andThen_of_ok hfin] at hnil
    exact absurd (List.append_eq_nil_iff.mp hnil).1 h
  | error mishap =>
    rw [andThen_of_error hfin] at hnil
    exact absurd hnil h

/-- Courses one after the other are sound if they are so one by one. -/
theorem Sound.andThen {c : Course ε α β} (h : c.Sound) {next : β → Course ε α γ}
    (hnext : ∀ result, (next result).Sound) : (c.andThen next).Sound := by
  intro hnil
  cases hfin : c.fin with
  | ok result =>
    rw [andThen_of_ok hfin] at hnil ⊢
    exact hnext result (List.append_eq_nil_iff.mp hnil).2
  | error mishap =>
    rw [andThen_of_error hfin] at hnil
    obtain ⟨result, hok⟩ := h hnil
    rw [hok] at hfin
    cases hfin

/-- To be done is sound. -/
theorem sound_done (result : β) : (done result : Course ε α β).Sound :=
  fun _ => ⟨result, rfl⟩

namespace Holds

variable {distinct : Prop} {δ : Type} {whole : Course ε α β} {path : List PathEntry}
  {part : Course ε α γ} {before after : List (Moment ε α)}

/-- A course holds itself. -/
theorem refl (c : Course ε α β) : Holds distinct c [] c [] [] where
  moments := by
    rw [List.map_congr_left fun m _ => Moment.shift_nil m]
    simp
  broken mishap h := ⟨rfl, by rw [Mishap.shift_nil]; exact h⟩
  done result h _ := ⟨result, h⟩
  outside _ m hm := absurd hm List.not_mem_nil

/-- A part stays a part when less is asked of the keys. -/
theorem imp {distinct' : Prop} (h : Holds distinct whole path part before after)
    (himp : distinct' → distinct) : Holds distinct' whole path part before after :=
  ⟨h.moments, h.broken, h.done, fun hdistinct => h.outside (himp hdistinct)⟩

/-- What a course holds it holds below another path entry. -/
theorem shift (h : Holds distinct whole path part before after) (entry : PathEntry) :
    Holds distinct (whole.shift [entry]) (entry :: path) part
      (before.map (Moment.shift [entry])) (after.map (Moment.shift [entry])) where
  moments := by
    -- To shift twice is to shift by both at once.
    unfold Course.shift
    simp only [h.moments, List.map_append, List.map_map]
    congr 2
    exact List.map_congr_left fun m _ => Moment.shift_shift [entry] path m
  broken mishap hpart := by
    obtain ⟨rfl, hwhole⟩ := h.broken mishap hpart
    refine ⟨rfl, ?_⟩
    unfold Course.shift
    rw [hwhole]
    exact congrArg Except.error (Mishap.shift_shift [entry] path mishap)
  done result hpart hafter := by
    obtain ⟨result', hwhole⟩ := h.done result hpart (List.map_eq_nil_iff.mp hafter)
    refine ⟨result', ?_⟩
    unfold Course.shift
    rw [hwhole]
    rfl
  outside hdistinct m hm := by
    rw [← List.map_append] at hm
    obtain ⟨m', hm', rfl⟩ := List.mem_map.mp hm
    exact (h.outside hdistinct m' hm').shift entry

/-- What the first part of a course holds the course holds, whatever follows. -/
theorem andThen (h : Holds distinct whole path part before after) {next : β → Course ε α δ}
    (hnext : ∀ result, (next result).Sound)
    (houtside : distinct → ∀ result, whole.fin = .ok result →
      ∀ m ∈ (next result).moments, m.Outside path) :
    ∃ after', Holds distinct (whole.andThen next) path part before after' := by
  -- If the whole has failed, the part is the same; otherwise what comes next stands after it.
  cases hfin : whole.fin with
  | error mishap =>
    rw [andThen_of_error hfin]
    refine ⟨after, h.moments, ?_, ?_, h.outside⟩
    · intro mishap' hpart
      obtain ⟨hafter, hwhole⟩ := h.broken mishap' hpart
      exact ⟨hafter, congrArg Except.error (Except.error.inj (hfin.symm.trans hwhole))⟩
    · intro result hpart hafter
      obtain ⟨result', hwhole⟩ := h.done result hpart hafter
      rw [hwhole] at hfin
      cases hfin
  | ok result =>
    rw [andThen_of_ok hfin]
    refine ⟨after ++ (next result).moments, ?_, ?_, ?_, ?_⟩
    · simp only [h.moments, List.append_assoc]
    · intro mishap hpart
      have hwhole := (h.broken mishap hpart).2
      rw [hwhole] at hfin
      cases hfin
    · intro _ _ hafter
      exact hnext result (List.append_eq_nil_iff.mp hafter).2
    · intro hdistinct m hm
      rw [← List.append_assoc] at hm
      rcases List.mem_append.mp hm with hm | hm
      · exact h.outside hdistinct m hm
      · exact houtside hdistinct result hfin m hm

/-- A part stays a part when the whole is only given another result. -/
theorem andThen_done (h : Holds distinct whole path part before after) (f : β → δ) :
    ∃ after', Holds distinct (whole.andThen fun result => .done (f result)) path part before
      after' :=
  h.andThen (fun result => sound_done (f result)) fun _ _ _ _ hm => absurd hm List.not_mem_nil

/-- What follows on the first part of a course holds a course that the whole then holds. -/
theorem after_of_ok {c : Course ε α δ} {result : δ} (hfin : c.fin = .ok result)
    {next : δ → Course ε α β} (h : Holds distinct (next result) path part before after)
    (houtside : distinct → ∀ m ∈ c.moments, m.Outside path) :
    Holds distinct (c.andThen next) path part (c.moments ++ before) after where
  moments := by
    -- What stands before the part is everything of the first course.
    rw [andThen_of_ok hfin]
    simp only [h.moments, List.append_assoc]
  broken mishap hpart := by
    rw [andThen_of_ok hfin]
    exact h.broken mishap hpart
  done result' hpart hafter := by
    rw [andThen_of_ok hfin]
    exact h.done result' hpart hafter
  outside hdistinct m hm := by
    rw [List.append_assoc] at hm
    rcases List.mem_append.mp hm with hm | hm
    · exact houtside hdistinct m hm
    · exact h.outside hdistinct m hm

end Holds

end Course

/-! ## Visits hold the visits below them -/

section

variable {step : Step Unit ε α} {a : Adapter}

/-- A part of a step makes one moment. -/
theorem Course.ofPart_moments (p : EStateM ε Unit β) (moment : Except ε β → Moment ε α) :
    ∃ fin, (Course.ofPart p moment).moments = [moment fin] := by
  unfold ofPart
  cases p () with
  | ok result t => exact ⟨.ok result, rfl⟩
  | error e t => exact ⟨.error e, rfl⟩

/-- The call of a node is one moment. -/
theorem calling_moments (step : Step Unit ε α) (node : Value) (acc : Option α) :
    ∃ answer, (calling step node acc).moments = [.called node [] acc answer] := by
  obtain ⟨fin, hfin⟩ := Course.ofPart_moments (step.start node acc {})
    (fun ended => .called node [] acc (.ofStart ended))
  exact ⟨_, hfin⟩

/-- The moments of the second phase of a step are resumptions and closes of the node itself. -/
theorem mem_resuming {node : Value}
    {resume : Children α → Context → EStateM ε Unit (Resumed Unit ε α)} {children : Children α}
    {m : Moment ε α} (h : m ∈ (resuming node resume children).moments) :
    m.position? = some ([], node) ∧ m.calledAt = none := by
  unfold resuming at h
  -- A resumption has one moment, and a second if the step suspends itself again.
  rcases Course.mem_andThen.mp h with h | ⟨resumed, -, h⟩
  · obtain ⟨fin, hfin⟩ := Course.ofPart_moments (resume children {})
      (fun ended => .resumed node [] children (.ofResumption ended))
    rw [hfin, List.mem_singleton] at h
    subst h
    exact ⟨rfl, rfl⟩
  · cases resumed with
    | finished result =>
      cases result with
      | some result => cases h
      | none => cases h
    | suspended close =>
      rcases Course.mem_andThen.mp h with h | ⟨_, -, h⟩
      · obtain ⟨fin, hfin⟩ := Course.ofPart_moments (close {})
          (fun ended => (.closed node [] (failure? ended) : Moment ε α))
        rw [hfin, List.mem_singleton] at h
        subst h
        exact ⟨rfl, rfl⟩
      · cases h

/-- To resume a step is sound. -/
theorem sound_resuming (node : Value)
    (resume : Children α → Context → EStateM ε Unit (Resumed Unit ε α)) (children : Children α) :
    (resuming node resume children).Sound := by
  refine Course.sound_andThen ?_ _
  obtain ⟨fin, hfin⟩ := Course.ofPart_moments (resume children {})
    (fun ended => .resumed node [] children (.ofResumption ended))
  rw [hfin]
  exact List.cons_ne_nil _ _

/-- A visit is not without moments. -/
theorem course_moments_ne_nil (step : Step Unit ε α) (tree : Tree) (acc : Option α) :
    (course step tree acc).moments ≠ [] := by
  -- Whatever the tree, its root is called first.
  have hcalling : ∀ node, ∃ m, m ∈ (calling step node acc).moments := by
    intro node
    obtain ⟨answer, hcalling⟩ := calling_moments step node acc
    rw [hcalling]
    exact ⟨_, List.mem_singleton_self _⟩
  cases tree with
  | sealed value =>
    obtain ⟨m, hm⟩ := hcalling value
    unfold course
    exact List.ne_nil_of_mem (Course.mem_andThen.mpr (.inl hm))
  | node value kind children =>
    obtain ⟨m, hm⟩ := hcalling value
    unfold course
    exact List.ne_nil_of_mem (Course.mem_andThen.mpr (.inl hm))

/-- The course of children is sound. -/
theorem sound_courseAll (step : Step Unit ε α) (parent : Value) (trees : List (Slot × Tree))
    (acc : Option α) : (courseAll step parent trees acc).Sound := by
  cases trees with
  | nil =>
    unfold courseAll
    exact Course.sound_done []
  | cons first rest =>
    unfold courseAll
    refine Course.sound_andThen ?_ _
    intro hnil
    exact course_moments_ne_nil step first.2 acc (List.map_eq_nil_iff.mp hnil)

/-- What happens while children are visited happens below the entry of one of them. -/
theorem mem_courseAll {parent : Value} {acc : Option α} {m : Moment ε α} :
    ∀ {trees : List (Slot × Tree)}, m ∈ (courseAll step parent trees acc).moments →
      ∃ slot ∈ trees.map Prod.fst, ∃ m' : Moment ε α, m = m'.shift [slot.entry parent]
  | [], h => by
    unfold courseAll at h
    cases h
  | (slot, tree) :: rest, h => by
    unfold courseAll at h
    rcases Course.mem_andThen.mp h with h | ⟨result, -, h⟩
    · obtain ⟨m', -, rfl⟩ := List.mem_map.mp h
      exact ⟨slot, List.mem_cons_self, m', rfl⟩
    · obtain ⟨slot', hslot', m', hm'⟩ := mem_courseAll (Course.mem_andThen_done.mp h)
      exact ⟨slot', List.mem_cons_of_mem _ hslot', m', hm'⟩

/-- A moment below an entry has a path through it. -/
private theorem exists_of_called_eq_shift {m : Moment ε α} {n : Value} {path : List PathEntry}
    {acc : Option α} {answer : Answer ε α} {entry : PathEntry}
    (h : .called n path acc answer = m.shift [entry]) :
    ∃ below, path = entry :: below ∧ m = .called n below acc answer := by
  cases m with
  | called n' below acc' answer' =>
    obtain ⟨rfl, rfl, rfl, rfl⟩ := Moment.called.inj h
    exact ⟨below, rfl, rfl⟩
  | logged line => cases h
  | resumed n' below children reply => cases h
  | closed n' below failure => cases h

mutual

/-- The course of the visit of a node holds that of every node that is called in it. -/
theorem exists_holds_course : ∀ (tree : Tree) (node : Value), a.view node = tree →
    ∀ {acc acc' : Option α} {n : Value} {path : List PathEntry} {answer : Answer ε α},
      .called n path acc' answer ∈ (course step tree acc).moments →
      ∃ before after, (course step tree acc).Holds node.DistinctKeys path
        (course step (a.view n) acc') before after
  | .sealed value, node, hview, acc, acc', n, path, answer, hcalled => by
    obtain ⟨rfl, -⟩ := Adapter.of_view_eq_sealed hview
    obtain ⟨answer', hcalling⟩ := calling_moments step value acc
    -- The only moment is the call of the node itself.
    have hself : (.called n path acc' answer : Moment ε α) = .called value [] acc answer' := by
      rw [course] at hcalled
      rcases Course.mem_andThen.mp hcalled with h | ⟨started, -, h⟩
      · rw [hcalling] at h
        exact List.mem_singleton.mp h
      · cases h
    obtain ⟨rfl, rfl, rfl, rfl⟩ := Moment.called.inj hself
    rw [hview]
    exact ⟨[], [], .refl _⟩
  | .node value kind trees, node, hview, acc, acc', n, path, answer, hcalled => by
    obtain ⟨rfl, rfl, children, hchildren, htrees⟩ := Adapter.of_view_eq_node hview
    obtain ⟨answer', hcalling⟩ := calling_moments step value acc
    have hroot : ∀ m ∈ (calling step value acc).moments, m.position? = some ([], value) := by
      intro m hm
      rw [hcalling, List.mem_singleton] at hm
      rw [hm]
      rfl
    -- The children have different places and distinct keys if the node has distinct keys.
    have hdistinct : value.DistinctKeys → (trees.map Prod.fst).Nodup ∧
        ∀ child ∈ children, child.2.DistinctKeys := by
      intro hkeys
      have hslots := Adapter.nodup_slots hchildren (Adapter.Reaches.root.distinctNames hkeys)
      refine ⟨?_, fun child hmem => ?_⟩
      · rw [← htrees, List.map_map]
        exact hslots
      · exact ((Adapter.mem_children?_iff hchildren).mp hmem).distinctKeys hkeys
    have hbelow : ∀ {acc₁}, .called n path acc' answer ∈ (courseAll step value trees acc₁).moments →
        -- What was called below the node has a path that starts with the entry for a child.
        ∃ entry below, path = entry :: below := by
      intro acc₁ h
      obtain ⟨slot, -, m', hm'⟩ := mem_courseAll h
      obtain ⟨below, hpath, -⟩ := exists_of_called_eq_shift hm'
      exact ⟨_, below, hpath⟩
    rw [course] at hcalled
    -- The call is that of the node itself or lies below it, where it stands after the first call
    -- and, if the node is suspended, before the resumption.
    rcases Course.mem_andThen.mp hcalled with h | ⟨started, hstarted, h⟩
    · rw [hcalling] at h
      obtain ⟨rfl, rfl, rfl, rfl⟩ := Moment.called.inj (List.mem_singleton.mp h)
      rw [hview]
      exact ⟨[], [], .refl _⟩
    · rw [course]
      cases started with
      | finished result =>
        have h := Course.mem_andThen_done.mp h
        obtain ⟨entry, below, rfl⟩ := hbelow h
        obtain ⟨before, after, hholds⟩ := exists_holds_courseAll value trees children htrees h
        obtain ⟨after', hholds'⟩ := (hholds.imp hdistinct).andThen_done fun _ => result
        exact ⟨_, _, hholds'.after_of_ok hstarted
          fun _ m hm => Moment.outside_of_root (hroot m hm) entry below⟩
      | suspended yielded resume =>
        rcases Course.mem_andThen.mp h with h | ⟨visits, -, h⟩
        · obtain ⟨entry, below, rfl⟩ := hbelow h
          obtain ⟨before, after, hholds⟩ := exists_holds_courseAll value trees children htrees h
          obtain ⟨after', hholds'⟩ := (hholds.imp hdistinct).andThen
            (fun visits => sound_resuming value resume (Children.ofVisits visits))
            (fun _ _ _ m hm => Moment.outside_of_root (mem_resuming hm).1 entry below)
          exact ⟨_, _, hholds'.after_of_ok hstarted
            fun _ m hm => Moment.outside_of_root (hroot m hm) entry below⟩
        · exact absurd (mem_resuming h).2 (by simp [Moment.calledAt])

/-- The course of children holds that of each node that is called below them. -/
theorem exists_holds_courseAll (parent : Value) : ∀ (trees : List (Slot × Tree))
    (children : List (Slot × Value)),
    children.map (fun child => (child.1, a.view child.2)) = trees →
    ∀ {acc acc' : Option α} {n : Value} {path : List PathEntry} {answer : Answer ε α},
      .called n path acc' answer ∈ (courseAll step parent trees acc).moments →
      ∃ before after, (courseAll step parent trees acc).Holds
        ((trees.map Prod.fst).Nodup ∧ ∀ child ∈ children, child.2.DistinctKeys) path
        (course step (a.view n) acc') before after
  | [], children, hview, acc, acc', n, path, answer, hcalled => by
    unfold courseAll at hcalled
    cases hcalled
  | (slot, tree) :: trees, children, hview, acc, acc', n, path, answer, hcalled => by
    obtain ⟨⟨place, child⟩, rest, rfl, hhead, hrest⟩ := List.map_eq_cons_iff.mp hview
    obtain ⟨rfl, hchild⟩ := Prod.mk.inj hhead
    -- Entries of different children differ.
    have hne : ((place, tree) :: trees).map Prod.fst |>.Nodup →
        ∀ slot ∈ trees.map Prod.fst, place.entry parent ≠ slot.entry parent := by
      intro hnodup slot hslot heq
      obtain rfl := Slot.entry_inj heq
      exact (List.nodup_cons.mp hnodup).1 hslot
    have hothers : ∀ {m : Moment ε α}, m ∈ (courseAll step parent trees acc).moments →
        ∃ slot ∈ trees.map Prod.fst, ∃ m' : Moment ε α, m = m'.shift [slot.entry parent] :=
      mem_courseAll
    rw [courseAll] at hcalled ⊢
    rcases Course.mem_andThen.mp hcalled with h | ⟨result, hresult, h⟩
    · -- The node is the first child or below it, and what follows happens below others.
      obtain ⟨m, hm, heq⟩ := List.mem_map.mp h
      obtain ⟨below, rfl, rfl⟩ := exists_of_called_eq_shift heq.symm
      obtain ⟨before, after, hholds⟩ := exists_holds_course tree child hchild hm
      have hkeys : (((place, tree) :: trees).map Prod.fst).Nodup ∧
          (∀ child' ∈ (place, child) :: rest, child'.2.DistinctKeys) → child.DistinctKeys :=
        fun hdistinct => hdistinct.2 (place, child) List.mem_cons_self
      obtain ⟨after', hholds'⟩ := ((hholds.shift (place.entry parent)).imp hkeys).andThen
        (fun result => (sound_courseAll step parent trees acc).andThen
          fun results => Course.sound_done ((place, result) :: results)) (by
            intro hdistinct result _ m hm
            obtain ⟨slot, hslot, m', rfl⟩ := hothers (Course.mem_andThen_done.mp hm)
            exact Moment.outside_of_ne (hne hdistinct.1 slot hslot) m' below)
      exact ⟨_, _, hholds'⟩
    · -- The node is a later child or below one, and what came before happened below the first.
      have h := Course.mem_andThen_done.mp h
      obtain ⟨slot, hslot, m', hm'⟩ := hothers h
      obtain ⟨below, rfl, -⟩ := exists_of_called_eq_shift hm'
      obtain ⟨before, after, hholds⟩ := exists_holds_courseAll parent trees rest hrest h
      have hkeys : (((place, tree) :: trees).map Prod.fst).Nodup ∧
          (∀ child' ∈ (place, child) :: rest, child'.2.DistinctKeys) →
          (trees.map Prod.fst).Nodup ∧ ∀ child' ∈ rest, child'.2.DistinctKeys :=
        fun hdistinct => ⟨(List.nodup_cons.mp hdistinct.1).2,
          fun child' hmem => hdistinct.2 child' (List.mem_cons_of_mem _ hmem)⟩
      obtain ⟨after', hholds'⟩ := (hholds.imp hkeys).andThen_done fun results =>
        (place, result) :: results
      refine ⟨_, _, hholds'.after_of_ok hresult ?_⟩
      intro hdistinct m hm
      obtain ⟨m₀, -, rfl⟩ := List.mem_map.mp hm
      exact Moment.outside_of_ne (hne hdistinct.1 slot hslot).symm m₀ below

end

end

/-! ## Whole walks -/

/-- Two failures are of one class if they are the same failure of a step, or the same breach at
    nodes of the same kind, wherever these lie. -/
inductive Failure.SameClass : Failure ε → Failure ε → Prop where
  | step (error : ε) : SameClass (.step error) (.step error)
  | breach (what : Breach) (kind : Option String) (location location' : String) :
      SameClass (.breach what ⟨kind, location⟩) (.breach what ⟨kind, location'⟩)
  | noFields (typeName : String) : SameClass (.noFields typeName) (.noFields typeName)

/-- Where a mishap happens does not change the class of its failure. -/
theorem Mishap.sameClass_shift (a : Adapter) (above : List PathEntry) (mishap : Mishap ε) :
    ((mishap.shift above).failure a).SameClass (mishap.failure a) := by
  cases mishap with
  | step error => exact .step error
  | breach what node path => exact .breach what (a.kindOf node) _ _
  | noFields typeName => exact .noFields typeName

/-- If a part fails, so does the whole that holds it, at once and by a failure of the same
    class; and right after a part the whole fails only if the part does. -/
theorem Course.Holds.fails {distinct : Prop} {whole : Course ε α β} {path : List PathEntry}
    {part : Course ε α γ} {before after : List (Moment ε α)}
    (h : Holds distinct whole path part before after) (a : Adapter) :
    (∀ failure, part.fin.mapError (Mishap.failure a) = .error failure → after = [] ∧
      ∃ failure', whole.fin.mapError (Mishap.failure a) = .error failure' ∧
        failure'.SameClass failure) ∧
    (∀ failure', whole.fin.mapError (Mishap.failure a) = .error failure' → after = [] →
      ∃ failure, part.fin.mapError (Mishap.failure a) = .error failure ∧
        failure'.SameClass failure) := by
  -- The failure of the whole is that of the part, with a longer path.
  cases hfin : part.fin with
  | ok result =>
    constructor
    · intro failure hfailure
      cases hfailure
    · intro failure' hfailure hafter
      obtain ⟨result', hok⟩ := h.done result hfin hafter
      rw [hok] at hfailure
      cases hfailure
  | error mishap =>
    obtain ⟨hafter, hwhole⟩ := h.broken mishap hfin
    have hclass := mishap.sameClass_shift a path
    rw [hwhole]
    constructor
    · intro failure hfailure
      obtain rfl := Except.error.inj hfailure
      exact ⟨hafter, _, rfl, hclass⟩
    · intro failure' hfailure _
      obtain rfl := Except.error.inj hfailure
      exact ⟨_, rfl, hclass⟩

/-- What has a result in a walk still has it with the way to the root in front. -/
theorem ResultAt.shift {moments : List (Moment ε α)} {path : List PathEntry} {node : Value}
    {result : Option α} (h : ResultAt moments path node result) (above : List PathEntry) :
    ResultAt (moments.map (Moment.shift above)) (above ++ path) node result := by
  rcases h with ⟨acc, hcalled⟩ | ⟨children, value, hvalue, hresumed⟩
  · exact .inl ⟨acc, List.mem_map.mpr ⟨_, hcalled, rfl⟩⟩
  · exact .inr ⟨children, value, hvalue, List.mem_map.mpr ⟨_, hresumed, rfl⟩⟩

/-- A step that waits for the results of the children ignores the context if its function does
    not take it. -/
theorem Step.ignoresContext_bottomUp (f : Value → Children α → EStateM ε Unit (Option α)) :
    (bottomUp fun node children _ => f node children).IgnoresContext := by
  intro node node' acc _ _ (hnode : node = node') _
  subst hnode
  refine .pure (.suspended none fun children _ _ _ => ?_)
  refine (Agree.of_eq rfl).bind_eq ?_
  intro result
  exact .pure (.finished result)

section

variable {root n parent : Value} {a : Adapter} {verbosity : Option VerbositySetting}
  {init : Option α} {moments : List (Moment ε α)} {fin : Except (Failure ε) (Option α)}
  {above : List PathEntry} {entry : PathEntry} {acc : Option α} {answer : Answer ε α}
  {children : Children α} {reply : Reply ε α}

/-- When a step is resumed its children have their results, which are what it is handed. -/
private theorem exists_resultAt_of_resumed (hvisit : Visit a verbosity [] init root moments fin)
    (hplaced : Throughout (Placed a root) [] moments) (hkeys : root.SeparateKeys)
    (hcalled : .called n (above ++ [entry]) acc answer ∈ moments)
    {past rest : List (Moment ε α)}
    (hmoments : moments = past ++ .resumed parent above children reply :: rest) :
    (∃ result, ResultAt past (above ++ [entry]) n result) ∧
      ∀ r, (entry, r) ∈ Children.located parent children ↔
        ∃ child, ResultAt past (above ++ [entry]) child r := by
  have hdelivered := hvisit.delivered hplaced hkeys hmoments
  obtain ⟨fields, result, -, -, hresults, -, hlocated, -⟩ := hdelivered
  have hparent : a.Reaches root above parent := by
    rw [hmoments] at hplaced
    exact hplaced.split.1
  -- The child stands in a slot of the parent, and all slots have been visited.
  obtain ⟨slot, rfl, hchild⟩ := isChild_of_called hplaced hkeys.distinctKeys hparent hcalled
  exact ⟨⟨result slot, hresults slot n hchild⟩, fun r => hlocated _ r⟩

/-- The step of a parent is not resumed before its child is called, nor while it is visited. -/
private theorem resumed_mem_after (hvisit : Visit a verbosity [] init root moments fin)
    (hplaced : Throughout (Placed a root) [] moments) (hkeys : root.SeparateKeys)
    (hcalled : .called n (above ++ [entry]) acc answer ∈ moments)
    {before block after : List (Moment ε α)}
    (hmoments : moments = before ++ block.map (Moment.shift (above ++ [entry])) ++ after)
    (houtside : ∀ m ∈ before, m.Outside (above ++ [entry]))
    (hresumed : .resumed parent above children reply ∈ moments) :
    .resumed parent above children reply ∈ after := by
  rw [hmoments, List.append_assoc] at hresumed
  rcases List.mem_append.mp hresumed with h | h
  · -- The child would have been called before the moments of its own visit.
    obtain ⟨past, rest, hbefore⟩ := List.append_of_mem h
    have hsplit : moments = past ++ .resumed parent above children reply ::
        (rest ++ block.map (Moment.shift (above ++ [entry])) ++ after) := by
      rw [hmoments, hbefore]
      simp only [List.append_assoc, List.cons_append]
    obtain ⟨⟨result, hresult⟩, -⟩ :=
      exists_resultAt_of_resumed hvisit hplaced hkeys hcalled hsplit
    rw [hsplit] at hplaced
    obtain ⟨acc', answer', hcalled'⟩ := hresult.exists_called hplaced.left
    have hmem : .called n (above ++ [entry]) acc' answer' ∈ before := by
      rw [hbefore]
      exact List.mem_append_left _ hcalled'
    exact absurd List.prefix_rfl (houtside _ hmem _ n rfl)
  · rcases List.mem_append.mp h with h | h
    · -- The moments of the visit of the child have longer paths.
      obtain ⟨m, -, hm⟩ := List.mem_map.mp h
      have hposition := Moment.position?_shift (above ++ [entry]) m
      rw [hm] at hposition
      obtain ⟨⟨place, node⟩, -, heq⟩ := Option.map_eq_some_iff.mp hposition.symm
      have hlength := congrArg List.length (Prod.mk.inj heq).1
      simp only [List.length_append, List.length_singleton] at hlength
      omega
    · exact h

end

/-- A walk by a step that does not look at its context holds, for every node that it calls, the
    walk of that node alone with the accumulator that was handed to it: in one piece, with the
    way to the node in front of every path, and with nothing else at the node or below it if
    names are distinct.  If the walk of the node fails nothing comes after it and the whole walk
    fails by a failure of the same class, and only so does the whole walk fail in the subtree.
    The parent of the node, once it is resumed, is handed the result of the walk of the node. -/
theorem history_subtree {step : Step Unit ε α} (hstep : step.IgnoresContext) (root : Value)
    (init : Option α) (adapter : Option Adapter) :
    let a := adapter.getD (.default root)
    let moments := history root step init () adapter none
    let whole := (traverse root step init () adapter none).outcome
    ∀ n path acc answer, .called n path acc answer ∈ moments →
      let alone := (traverse n step acc () (some a) none).outcome
      ∃ before after,
        moments = before ++ (history n step acc () (some a) none).map (Moment.shift path) ++
          after ∧
        (∀ failure, alone = .error failure →
          after = [] ∧ ∃ failure', whole = .error failure' ∧ failure'.SameClass failure) ∧
        (∀ failure', whole = .error failure' → after = [] →
          ∃ failure, alone = .error failure ∧ failure'.SameClass failure) ∧
        (root.DistinctKeys → ∀ m ∈ before ++ after, m.Outside path) ∧
        (root.SeparateKeys → ∀ parent above entry children reply, path = above ++ [entry] →
          -- Both walks are courses of trees, since the step does not look at its context, and the
          -- course of the node is a part of that of the root.
          .resumed parent above children reply ∈ moments →
          ∃ result, alone = .ok result ∧
            ∀ r, (entry, r) ∈ Children.located parent children ↔ r = result) := by
  intro a moments whole n path acc answer hcalled alone
  have hmoments : moments = (course step (a.view root) init).moments :=
    (history_eq_course hstep root init adapter).1
  have hwhole : whole = (course step (a.view root) init).fin.mapError (Mishap.failure a) :=
    (history_eq_course hstep root init adapter).2
  have hpart : history n step acc () (some a) none = (course step (a.view n) acc).moments :=
    (history_eq_course hstep n acc (some a)).1
  have halone : alone = (course step (a.view n) acc).fin.mapError (Mishap.failure a) :=
    (history_eq_course hstep n acc (some a)).2
  obtain ⟨before, after, hholds⟩ :=
    exists_holds_course (a.view root) root rfl (hmoments ▸ hcalled)
  obtain ⟨hbroken, hdone⟩ := hholds.fails a
  rw [← halone, ← hwhole] at hbroken hdone
  have hblock : moments = before ++
      (history n step acc () (some a) none).map (Moment.shift path) ++ after := by
    rw [hmoments, hholds.moments, hpart]
  refine ⟨before, after, hblock, hbroken, hdone, hholds.outside, ?_⟩
  intro hkeys parent above entry children reply hpath hresumed
  subst hpath
  have hvisit : Visit a none [] init root moments whole :=
    -- Nothing at the node or below it happens outside its own walk, so all about the handing over
    -- lies in the walk of the node or after it.
    (visit_history root step init () adapter none).1
  have hplaced : Throughout (Placed a root) [] moments :=
    history_placed root step init () adapter none
  have houtside : ∀ m ∈ before, m.Outside (above ++ [entry]) := fun m hm =>
    hholds.outside hkeys.distinctKeys m (List.mem_append_left _ hm)
  -- As the parent was resumed afterwards, the walk of the node does not fail.
  have hafter := resumed_mem_after hvisit hplaced hkeys hcalled hblock houtside hresumed
  obtain ⟨result, hresult⟩ : ∃ result, alone = .ok result := by
    cases hfin : alone with
    | ok result => exact ⟨result, rfl⟩
    | error failure =>
      rw [(hbroken failure hfin).1] at hafter
      cases hafter
  refine ⟨result, hresult, ?_⟩
  -- The result shows in the moments of the walk of the node, and there is only one.
  have hshown : ResultAt moments (above ++ [entry]) n result := by
    have hvisit' := (visit_history n step acc () (some a) none).1
    rw [show (traverse n step acc () (some a) none).outcome = _ from hresult] at hvisit'
    have hshift := hvisit'.resultAt.shift (above ++ [entry])
    rw [List.append_nil] at hshift
    refine hshift.mono ?_
    rw [hblock]
    exact fun m hm => List.mem_append_left _ (List.mem_append_right _ hm)
  have hnodup := hvisit.nodup_taken hkeys.distinctKeys
  obtain ⟨past, rest, hsplit⟩ := List.append_of_mem hresumed
  obtain ⟨⟨result', hresult'⟩, hlocated⟩ :=
    exists_resultAt_of_resumed hvisit hplaced hkeys hcalled hsplit
  have hpast : past ⊆ moments := by
    rw [show moments = _ from hsplit]
    exact List.subset_append_left _ _
  intro r
  rw [hlocated]
  constructor
  · intro ⟨child, hr⟩
    exact (hr.mono hpast).unique hnodup hplaced hshown
  · intro hr
    rw [hr, hshown.unique hnodup hplaced (hresult'.mono hpast)]
    exact ⟨n, hresult'⟩

/-- Measuring the depth of `1 + 2`, the walk of the right operand alone, of depth one, stands in
    that of the sum, which is handed its result. -/
theorem history_subtree_onePlusTwo :
    let depth : Step Unit Unit Nat := maxDepth
    let moments := history onePlusTwo depth none () none none
    depth.IgnoresContext ∧ ∃ n path acc answer before after,
      .called n path acc answer ∈ moments ∧
      Adapter.tagged.location path = "BinaryExpression.right" ∧
      moments = before ++ (history n depth acc () (some .tagged) none).map (Moment.shift path) ++
        after := by
  intro depth moments
  have hdepth : depth.IgnoresContext := Step.ignoresContext_bottomUp _
  -- The right operand is found by its place; its walk is what the theorem tells.
  have hany : ∃ m ∈ moments, m.calledAt.map (fun place => Adapter.tagged.location place.1) =
      some "BinaryExpression.right" := by
    decide +kernel
  obtain ⟨m, hm, hlocation⟩ := hany
  cases m with
  | called n path acc answer =>
    obtain ⟨before, after, hmoments, -⟩ :=
      history_subtree hdepth onePlusTwo none none n path acc answer hm
    exact ⟨hdepth, n, path, acc, answer, before, after, hm, Option.some.inj hlocation, hmoments⟩
  | logged line => cases hlocation
  | resumed n path children reply => cases hlocation
  | closed n path failure => cases hlocation

end TreeWalk
