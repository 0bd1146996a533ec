import Mathlib.Algebra.BigOperators.Group.List.Lemmas
import Mathlib.Algebra.Ring.Int.Defs
import Mathlib.Data.List.Count
import Mathlib.Data.Nat.Cast.Basic
import TreeWalk.Proofs.Gathering
import TreeWalk.Proofs.StandardReaders
import TreeWalk.Summary

/-! # What a summary says

A summary takes three walks: one lists the kinds of the nodes, one counts them and one
measures the depth of the tree.  They all come to the same nodes, so that the three parts of
the summary agree: the counts are those of the list, and the depth is that of the deepest call
of the step.

## Key results

* `Summary.Agrees` is the agreement of a summary with the tree that an adapter shows.
* `ofDocument_agrees` says that the summary of every document that can be loaded agrees with
  its tree, and what the walks for listing and counting give on any tree.
-/

namespace TreeWalk

variable {σ ε : Type}

namespace Summary

/-! ## Counts -/

/-- The kinds of a tally, where all have a name. -/
def countsOf (kinds : List String) : List (String × Int) :=
  named (Tally.ofKinds (kinds.map some)).mostCommon

/-- The named kinds of a tally are its kinds, and the counts are the same. -/
theorem mem_named {tally : Tally} {entry : String × Int} :
    entry ∈ named tally ↔ ∃ n : Nat, (some entry.1, n) ∈ tally ∧ entry.2 = n := by
  obtain ⟨kind, count⟩ := entry
  unfold named
  rw [List.mem_filterMap]
  constructor
  · rintro ⟨⟨kind', n⟩, hmem, heq⟩
    cases kind' with
    | none => cases heq
    | some kind' =>
      obtain ⟨rfl, rfl⟩ := Prod.mk.inj (Option.some.inj heq)
      exact ⟨n, hmem, rfl⟩
  · rintro ⟨n, hmem, rfl⟩
    exact ⟨(some kind, n), hmem, rfl⟩

variable {kinds : List String}

/-- The entries are those of the kinds, each with the number of its occurrences. -/
theorem mem_countsOf {entry : String × Int} :
    entry ∈ countsOf kinds ↔ entry.1 ∈ kinds ∧ entry.2 = kinds.count entry.1 := by
  -- Kinds are counted with those that are missing, of which there are none.
  have hcount := List.count_map_of_injective kinds some (fun _ _ => Option.some.inj) entry.1
  unfold countsOf
  rw [mem_named]
  simp only [Tally.mem_mostCommon, Tally.ofKinds_eq, List.mem_map, List.mem_eraseDups,
    Prod.mk.injEq]
  constructor
  · rintro ⟨n, ⟨_, ⟨kind, hkind, rfl⟩, heq, rfl⟩, hn⟩
    obtain rfl := Option.some.inj heq
    exact ⟨hkind, by rw [hn, hcount]⟩
  · rintro ⟨hkind, hn⟩
    exact ⟨_, ⟨_, ⟨entry.1, hkind, rfl⟩, rfl, rfl⟩, by rw [hn, hcount]⟩

/-- Naming the items of a list keeps their places. -/
private theorem idxOf_map_some (kinds : List String) (kind : String) :
    (kinds.map some).idxOf (some kind) = kinds.idxOf kind := by
  induction kinds with
  | nil => rfl
  | cons first rest ih => simp [List.idxOf_cons, ih]

/-- The most frequent kinds come first, and those of the same count in the order in which
    they first occur. -/
theorem pairwise_countsOf (kinds : List String) :
    (countsOf kinds).Pairwise fun entry later =>
      later.2 ≤ entry.2 ∧ (entry.2 = later.2 → kinds.idxOf entry.1 < kinds.idxOf later.1) := by
  unfold countsOf named
  rw [List.pairwise_filterMap]
  refine (Tally.pairwise_mostCommon (kinds.map some)).imp ?_
  rintro ⟨kind, n⟩ ⟨later, m⟩ ⟨hle, htied⟩ entry hentry other hother
  -- Only kinds are left, so that their order is that of the tally.
  cases kind with
  | none => cases hentry
  | some kind =>
    cases later with
    | none => cases hother
    | some later =>
      obtain rfl := Option.some.inj hentry
      obtain rfl := Option.some.inj hother
      rw [idxOf_map_some, idxOf_map_some] at htied
      exact ⟨Int.ofNat_le.mpr hle, fun heq => htied (Int.ofNat.inj heq)⟩

/-- Every kind has one entry. -/
theorem nodup_countsOf (kinds : List String) : ((countsOf kinds).map Prod.fst).Nodup := by
  refine List.pairwise_map.mpr ((pairwise_countsOf kinds).imp_of_mem ?_)
  rintro entry later hentry hlater ⟨-, htied⟩ heq
  -- Two entries of one kind would have the same count, and one of them would come first.
  have hcounts : entry.2 = later.2 := by
    rw [(mem_countsOf.mp hentry).2, (mem_countsOf.mp hlater).2, heq]
  have hlt := htied hcounts
  rw [heq] at hlt
  exact Nat.lt_irrefl _ hlt

/-- The kinds that are counted are those that occur. -/
theorem mem_keys_countsOf {kind : String} :
    kind ∈ (countsOf kinds).map Prod.fst ↔ kind ∈ kinds := by
  rw [List.mem_map]
  constructor
  · rintro ⟨entry, hentry, rfl⟩
    exact (mem_countsOf.mp hentry).1
  · intro hkind
    exact ⟨(kind, kinds.count kind), mem_countsOf.mpr ⟨hkind, rfl⟩, rfl⟩

/-- All counts together make the number of kinds. -/
theorem sum_countsOf (kinds : List String) :
    ((countsOf kinds).map Prod.snd).sum = kinds.length := by
  -- The counts are those of the distinct kinds, in some order, and these sum up to the length.
  have hsnd : (countsOf kinds).map Prod.snd =
      ((countsOf kinds).map Prod.fst).map fun kind => (kinds.count kind : Int) := by
    rw [List.map_map]
    exact List.map_congr_left fun entry hentry => (mem_countsOf.mp hentry).2
  have hperm : ((countsOf kinds).map Prod.fst).Perm kinds.dedup := by
    refine (List.perm_ext_iff_of_nodup (nodup_countsOf kinds) kinds.nodup_dedup).mpr ?_
    intro kind
    rw [mem_keys_countsOf, List.mem_dedup]
  have hsum := List.sum_map_count_dedup_eq_length kinds
  have hcast := map_list_sum (Nat.castAddMonoidHom ℤ) (kinds.dedup.map fun kind => kinds.count kind)
  rw [hsum, List.map_map] at hcast
  rw [hsnd, (hperm.map _).sum_eq]
  exact hcast.symm

/-! ## Agreement -/

/-- A summary agrees with the tree that an adapter shows below a root. -/
structure Agrees (s : Summary) (a : Adapter) (root : Value) : Prop where
  /-- The kinds are those of the nodes in pre-order, all of which have one. -/
  kinds : s.kinds.map some = (a.stops root).map fun stop => a.kindOf stop.node
  /-- Every kind has one count and nothing else has one. -/
  mem_counts : ∀ kind, kind ∈ s.counts.map Prod.fst ↔ kind ∈ s.kinds
  nodup_counts : (s.counts.map Prod.fst).Nodup
  /-- A kind is mapped to the number of its occurrences. -/
  count : ∀ entry ∈ s.counts, entry.2 = s.kinds.count entry.1
  sum_counts : (s.counts.map Prod.snd).sum = s.kinds.length
  /-- The counts descend, and ties stand in the order of first occurrence. -/
  counts_order : s.counts.Pairwise fun entry later => later.2 ≤ entry.2 ∧
    (entry.2 = later.2 → s.kinds.idxOf entry.1 < s.kinds.idxOf later.1)
  /-- No node lies deeper than the depth of the tree, and one lies as deep. -/
  depth_le : ∀ stop ∈ a.stops root, (stop.path.length : Int) + 1 ≤ s.maxDepth
  exists_depth_eq : ∃ stop ∈ a.stops root, (stop.path.length : Int) + 1 = s.maxDepth
  one_le_maxDepth : 1 ≤ s.maxDepth
  maxDepth_le : s.maxDepth ≤ s.kinds.length

end Summary

/-- Every stop below a node is a node, so that it has a kind. -/
theorem Adapter.exists_kindsAt_eq {a : Adapter} {root : Value} (hnode : a.isNode root = true) :
    ∃ kinds : List String, a.kindsAt (a.stops root) = kinds.map some := by
  -- The walk reaches every stop, and nothing but nodes is reached from a node.
  have hkind : ∀ stop ∈ a.stops root, ∃ kind, a.kindOf stop.node = some kind := by
    intro stop hstop
    have hreach := (a.exists_stop_iff root stop.path stop.node).mp ⟨stop, hstop, rfl⟩
    refine Option.isSome_iff_exists.mp ?_
    generalize stop.path = path, stop.node = node at hreach
    cases hreach with
    | root => exact hnode
    | child _ hchild => exact hchild.1
  unfold kindsAt
  generalize a.stops root = stops at hkind
  induction stops with
  | nil => exact ⟨[], rfl⟩
  | cons stop rest ih =>
    rw [List.forall_mem_cons] at hkind
    obtain ⟨kind, hfirst⟩ := hkind.1
    obtain ⟨kinds, hrest⟩ := ih hkind.2
    exact ⟨kind :: kinds, by rw [List.map_cons, hfirst, hrest, List.map_cons]⟩

/-- A summary whose kinds and depth are those of the tree, and whose counts are those of the
    kinds, agrees with the tree. -/
theorem Summary.agrees {a : Adapter} {root : Value} {kinds : List String}
    (hkinds : a.kindsAt (a.stops root) = kinds.map some) (source : String) :
    Agrees ⟨source, kinds, countsOf kinds, ((a.view root).fold gatherDepth : Nat)⟩ a root := by
  -- The depth is the greatest level that has a stop.
  have hlevels : Levels 0 ((a.view root).fold gatherDepth) (a.stops root) :=
    Tree.fold_depth (a.view root) [] []
  have hpos := (a.view root).fold_depth_pos
  have hlength : (a.stops root).length = kinds.length := by
    have hlengths := congrArg List.length hkinds
    rwa [Adapter.kindsAt, List.length_map, List.length_map] at hlengths
  refine ⟨hkinds.symm, fun _ => mem_keys_countsOf, nodup_countsOf kinds,
    fun _ hentry => (mem_countsOf.mp hentry).2, sum_countsOf kinds, pairwise_countsOf kinds,
    ?_, ?_, ?_, ?_⟩
  · intro stop hstop
    have hle := hlevels.le stop hstop
    show (stop.path.length : Int) + 1 ≤ ((a.view root).fold gatherDepth : Nat)
    omega
  · obtain ⟨stop, hstop, heq⟩ := hlevels.exists_eq hpos
    refine ⟨stop, hstop, ?_⟩
    show (stop.path.length : Int) + 1 = ((a.view root).fold gatherDepth : Nat)
    omega
  · show (1 : Int) ≤ ((a.view root).fold gatherDepth : Nat)
    omega
  · have hle := hlevels.le_length
    show (((a.view root).fold gatherDepth : Nat) : Int) ≤ kinds.length
    omega

/-! ## The three walks -/

/-- The walk that counts kinds gives each kind of a node once, with the number of its
    occurrences, in the order in which the kinds first occur in pre-order. -/
theorem countKinds_eq_of_reads {root : Value} {adapter : Option Adapter} {a : Adapter}
    (ha : adapter.getD (.default root) = a) (hreads : a.reads root = true)
    (hseparate : a.SeparateBelow root) (init : Option Tally) (own : σ) :
    traverse root (countKinds : Step σ ε Tally) init own adapter =
      ⟨.ok (some (Tally.ofKinds (a.kindsAt (a.stops root)))), [], own⟩ := by
  rw [traverse_gathers_of_reads countKinds_gathers ha hreads hseparate,
    Adapter.fold_tally _ root rfl hreads [] []]
  rfl

/-- The counting of kinds gives the tally of the kinds at the stops. -/
theorem countKinds_eq {root : Value} {adapter : Option Adapter} {a : Adapter}
    (ha : adapter.getD (.default root) = a) (hnode : a.isNode root = true)
    (hseparate : a.SeparateBelow root) (init : Option Tally) (own : σ) :
    traverse root (countKinds : Step σ ε Tally) init own adapter =
      ⟨.ok (some (Tally.ofKinds (a.kindsAt (a.stops root)))), [], own⟩ :=
  countKinds_eq_of_reads ha (Adapter.reads_of_isNode hnode) hseparate init own

/-- The summary of a root with separate names below it, part by part. -/
theorem ofDocument_eq (d : Document) (hnode : d.adapter.isNode d.root = true)
    (hseparate : d.adapter.SeparateBelow d.root) {kinds : List String}
    (hkinds : d.adapter.kindsAt (d.adapter.stops d.root) = kinds.map some)
    (verbosity : Option VerbositySetting) :
    (Summary.ofDocument d verbosity).1 =
      ⟨d.path, kinds, Summary.countsOf kinds,
        ((d.adapter.view d.root).fold gatherDepth : Nat)⟩ := by
  have hadapter : (some d.adapter).getD (.default d.root) = d.adapter := rfl
  obtain ⟨-, hlisting⟩ := listKinds_eq hadapter hnode [] verbosity
  have htally := countKinds_eq (σ := Unit) (ε := Empty) hadapter hnode hseparate none ()
  have hdepth := traverse_gathers (maxDepth_gathers (σ := Unit) (ε := Empty)) hadapter hnode
    hseparate none ()
  -- The listing holds the kinds as texts, from which the summary takes them again.
  have htexts : (kinds.map Value.str).filterMap Value.text? = kinds := by
    rw [List.filterMap_map]
    exact List.filterMap_some
  have hitems : (kinds.map some).map kindItem = kinds.map Value.str := by
    rw [List.map_map]
    rfl
  rw [hkinds, hitems, List.nil_append] at hlisting
  rw [hkinds] at htally
  simp only [Summary.ofDocument, hlisting, htexts, htally, hdepth, Summary.resultOf]
  rfl

/-- The summary of a document that has been loaded agrees with its tree. -/
theorem agrees_ofDocument {readers : Readers} (hreaders : readers.Lawful)
    {find : String → Option FileEntry} {path tagField : String} {skip : List Value}
    {adapter : Option Adapter} {d : Document}
    (hload : Document.load readers find path tagField skip adapter = .ok d)
    (verbosity : Option VerbositySetting) :
    (Summary.ofDocument d verbosity).1.Agrees d.adapter d.root := by
  obtain ⟨hnode, -⟩ := Document.of_load_eq_ok hload
  obtain ⟨kinds, hkinds⟩ := Adapter.exists_kindsAt_eq hnode
  rw [ofDocument_eq d hnode (Document.separateBelow_of_load hreaders hload) hkinds verbosity]
  exact Summary.agrees hkinds d.path

/-- With readers that make dictionaries of objects, the summary of a document that can be loaded
    agrees with its tree, and the list that its kinds come from holds nothing but texts; the
    stops of the tree are the nodes that a walk reaches, and every walk of the summary calls
    its step at them in order.  On any tree whose root is a node, the walk that lists kinds
    extends the list that it is given by the kinds in pre-order, and the one that counts them
    gives the counts in the order of first occurrence. -/
theorem ofDocument_agrees :
    (∀ (readers : Readers) (find : String → Option FileEntry) (path tagField : String)
      (skip : List Value) (adapter : Option Adapter) (d : Document)
      (verbosity : Option VerbositySetting), readers.Lawful →
      Document.load readers find path tagField skip adapter = .ok d →
      let s := (Summary.ofDocument d verbosity).1
      let listing := listKinds d.root (.list []) d.adapter verbosity
      s.Agrees d.adapter d.root ∧
        listing.outcome = .ok (some .listing) ∧ listing.own.own = s.kinds.map .str ∧
        (∀ path node, (∃ stop ∈ d.adapter.stops d.root, stop.position = (path, node)) ↔
          d.adapter.Reaches d.root path node) ∧
        (history d.root (maxDepth : Step Unit Empty Nat) none () d.adapter none).filterMap
          Moment.calledAt = (d.adapter.stops d.root).map Stop.position) ∧
    ∀ (root : Value) (adapter : Option Adapter) (verbosity : Option VerbositySetting),
      let a := adapter.getD (.default root)
      let kinds := (a.stops root).map fun stop => a.kindOf stop.node
      a.isNode root = true →
      (∀ items, let ending := listKinds root (.list items) adapter verbosity
        ending.outcome = .ok (some .listing) ∧ ending.own.own = items ++ kinds.map kindItem) ∧
      (a.SeparateBelow root → ∀ (init : Option Tally) (own : σ),
        (traverseLogged root (countKinds : Step σ ε Tally) init own adapter verbosity).outcome =
          .ok (some (kinds.eraseDups.map fun kind => (kind, kinds.count kind)))) := by
  refine ⟨?_, ?_⟩
  · intro readers find path tagField skip adapter d verbosity hreaders hload s listing
    -- A document that has been loaded has a node for its root and keys that are told apart.
    obtain ⟨hnode, -⟩ := Document.of_load_eq_ok hload
    have hseparate := Document.separateBelow_of_load hreaders hload
    obtain ⟨kinds, hkinds⟩ := Adapter.exists_kindsAt_eq hnode
    have hs : s = _ := ofDocument_eq d hnode hseparate hkinds verbosity
    have hadapter : (some d.adapter).getD (.default d.root) = d.adapter := rfl
    obtain ⟨houtcome, hlisting⟩ := listKinds_eq hadapter hnode [] verbosity
    have hdepth := traverse_gathers (maxDepth_gathers (σ := Unit) (ε := Empty)) hadapter hnode
      hseparate none ()
    refine ⟨agrees_ofDocument hreaders hload verbosity, houtcome, ?_,
      d.adapter.exists_stop_iff d.root, ?_⟩
    · rw [hlisting, hkinds, hs, List.nil_append, List.map_map]
      rfl
    · exact filterMap_calledAt_history d.root maxDepth none () d.adapter none
        (congrArg Ending.outcome hdepth)
  · intro root adapter verbosity a kinds hnode
    refine ⟨fun items => listKinds_eq rfl hnode items verbosity, ?_⟩
    intro hseparate init own
    rw [(traverseLogged_eq root countKinds init own adapter verbosity).1,
      countKinds_eq rfl hnode hseparate, Tally.ofKinds_eq]
    rfl

/-- A document with three nodes of two kinds, as text. -/
def nestedText : String :=
  "\x7b\"type\": \"A\", \"b\": [\x7b\"type\": \"B\"\x7d, \x7b\"type\": \"A\"\x7d]\x7d"

/-- That document alone, under every name. -/
def nestedFile : String → Option FileEntry := fun _ =>
  some (.file (nestedText.toList.map fun c => UInt8.ofNat c.toNat))

/-- The document with three nodes is loaded and summarised: its kinds are listed in
    pre-order on two levels.  The kinds of the sum `1 + 2` are counted from its root on. -/
theorem ofDocument_agrees_nestedFile :
    (∃ d, Document.load .standard nestedFile "nested.json" = .ok d ∧
      (Summary.ofDocument d).1.Agrees d.adapter d.root ∧
      (Summary.ofDocument d).1.kinds = ["A", "B", "A"] ∧ (Summary.ofDocument d).1.maxDepth = 2) ∧
    Adapter.tagged.isNode onePlusTwo = true ∧ Adapter.tagged.SeparateBelow onePlusTwo ∧
      (traverseLogged onePlusTwo (countKinds : Step Unit Empty Tally) none () none none).outcome =
        .ok (some [(some "BinaryExpression", 1), (some "NumericLiteral", 2)]) := by
  -- The document is computed once and is then given to the theorem.
  have hloaded : (Document.load .standard nestedFile "nested.json").toOption.map (fun d =>
      ((Summary.ofDocument d).1.kinds, (Summary.ofDocument d).1.maxDepth)) =
      some (["A", "B", "A"], 2) := by
    decide +kernel
  have hnode : Adapter.tagged.isNode onePlusTwo = true := by decide
  have hseparate := Adapter.tagged.separateBelow_of_separateKeys separateKeys_onePlusTwo
  obtain ⟨hdocuments, htrees⟩ := ofDocument_agrees (σ := Unit) (ε := Empty)
  refine ⟨?_, hnode, hseparate, ?_⟩
  · cases hload : Document.load .standard nestedFile "nested.json" with
    | error e =>
      rw [hload] at hloaded
      cases hloaded
    | ok d =>
      rw [hload] at hloaded
      obtain ⟨hkinds, hdepth⟩ := Prod.mk.inj (Option.some.inj hloaded)
      have hagrees := (hdocuments .standard nestedFile "nested.json" defaultTagField [] none d none
        Readers.lawful_standard hload).1
      exact ⟨d, rfl, hagrees, hkinds, hdepth⟩
  · have htally := (htrees onePlusTwo none none hnode).2 hseparate none ()
    refine htally.trans (congrArg (fun tally => Except.ok (some tally)) ?_)
    decide +kernel

end TreeWalk
