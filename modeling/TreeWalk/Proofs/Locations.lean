import TreeWalk.Proofs.Names
import TreeWalk.Proofs.Outcome
import TreeWalk.Proofs.Route

/-! # Reading a location

A described path runs the kind of the root, the names of fields and the positions in them
together into one text.  The kind may be any text at all, so the text alone does not tell where
it ends; but whoever knows the kind of the root can cut it off, and as long as the names have
neither a dot nor an opening bracket in them, the rest can be cut at the dots and every piece at
its bracket.

## Key results

* `readLocation_writeLocation` reads back what was written.
* `Adapter.Reaches.located` says that what is read leads from the root to the node.
* `Visit.breached` finds the node that a breach is reported at.
* `traverse_located` says for whole walks that locations tell the visited nodes apart.
-/

namespace TreeWalk

variable {σ ε α : Type}

/-! ## Ways -/

/-- Whether a field name is a text with none of the characters that part the pieces of a
    location. -/
def Value.IsPlainName : Value → Prop
  | .str name => '.' ∉ name.toList ∧ '[' ∉ name.toList
  | _ => False

instance : DecidablePred Value.IsPlainName
  | .str name => inferInstanceAs (Decidable ('.' ∉ name.toList ∧ '[' ∉ name.toList))
  | .null | .bool _ | .int _ | .float _ | .bytes _ | .date _ | .group .. | .record .. => .isFalse id

/-- One step of the way down from a node: the field taken and, if it holds a sequence, the
    position in it. -/
structure Waypoint where
  field : String
  index : Option Nat
  deriving DecidableEq, Repr

namespace Waypoint

/-- Where the child hangs that the way leads to. -/
def slot (w : Waypoint) : Slot :=
  ⟨.str w.field, w.index⟩

/-- Whether the step takes a field with a plain name. -/
def IsPlain (w : Waypoint) : Prop :=
  w.slot.prop.IsPlainName

/-- The piece of a location that the step adds. -/
def write (w : Waypoint) : String :=
  "." ++ w.field ++ (match w.index with
    | some i => "[" ++ toString i ++ "]"
    | none => "")

/-- Reads a piece of a location, without its dot: what stands before the bracket is the name,
    what stands between the brackets the position. -/
def read (piece : List Char) : Waypoint :=
  let field := String.ofList (piece.takeWhile (· != '['))
  match piece.dropWhile (· != '[') with
  | [] => ⟨field, none⟩
  | _ :: rest => ⟨field, some (Nat.ofDigitChars 10 rest.dropLast 0)⟩

end Waypoint

/-- The location at the end of a way from a root of the given kind. -/
def writeLocation (kind : Option String) (ways : List Waypoint) : String :=
  if ways.isEmpty then Context.rootMark
  else Context.rootName kind ++ String.join (ways.map Waypoint.write)

/-- Reads the way from a location, for a root of the given kind. -/
def readLocation (kind : Option String) (location : String) : List Waypoint :=
  if location = Context.rootMark then []
  else
    let rest := location.toList.drop (Context.rootName kind).toList.length
    (rest.splitOn '.').tail.map Waypoint.read

open Value in
/-- Goes down from a value: into the field of each name, and there to the item at the position
    if one is given. -/
def Adapter.follow (a : Adapter) : Value → List Waypoint → Option Value
  | node, [] => some node
  | node, w :: rest =>
    match (a.fields? node).bind fun fields => entry? w.field fields with
    | none => none
    | some held =>
      match w.index, held with
      | none, _ => a.follow held rest
      | some i, .group _ items => (items[i]?).bind fun item => a.follow item rest
      | some _, _ => none

/-! ## Reading what was written -/

namespace Waypoint

/-- A piece without its dot. -/
private def body (w : Waypoint) : List Char :=
  w.field.toList ++ (match w.index with
    | some i => '[' :: (Nat.toDigits 10 i ++ [']'])
    | none => [])

/-- A waypoint is written as a dot and its body. -/
private theorem toList_write (w : Waypoint) : w.write.toList = '.' :: w.body := by
  unfold write body
  cases w.index with
  | none => simp
  | some i => simp

/-- A piece has no dot in it but the one it starts with. -/
private theorem dot_notMem_body {w : Waypoint} (hw : w.IsPlain) : '.' ∉ w.body := by
  unfold body
  intro hmem
  rcases List.mem_append.mp hmem with hmem | hmem
  · exact hw.1 hmem
  · cases hindex : w.index with
    | none => simp [hindex] at hmem
    | some i =>
      -- Between the brackets there are only digits.
      simp only [hindex, List.mem_cons, List.mem_append, List.not_mem_nil, or_false] at hmem
      rcases hmem with h | h | h
      · cases h
      · have hdigit := Nat.isDigit_of_mem_toDigits (by omega) (by omega) h
        cases hdigit
      · cases h

/-- The body of a plain waypoint is read back as this waypoint. -/
private theorem read_body {w : Waypoint} (hw : w.IsPlain) : read w.body = w := by
  -- The name goes up to the first bracket, since it has none in it.
  have hname : ∀ c ∈ w.field.toList, (c != '[') = true := by
    intro c hc
    apply bne_iff_ne.mpr
    rintro rfl
    exact hw.2 hc
  unfold read body
  obtain ⟨field, index⟩ := w
  rw [List.takeWhile_append_of_pos hname, List.dropWhile_append_of_pos hname]
  cases index with
  | none => simp
  | some i => simp [Nat.ofDigitChars_ten_toDigits]

end Waypoint

/-- Pieces that all start with the mark are cut apart at it. -/
private theorem splitOn_flatMap_cons {mark : Char} {pieces : List (List Char)}
    (h : ∀ piece ∈ pieces, mark ∉ piece) :
    ((pieces.flatMap fun piece => mark :: piece).splitOn mark).tail = pieces := by
  -- The induction needs something to stand in front of the first mark.
  have hjoin : ∀ start : List Char, [mark].intercalate (start :: pieces) =
      start ++ pieces.flatMap fun piece => mark :: piece := by
    induction pieces with
    | nil => intro start; simp [List.intercalate]
    | cons piece rest ih =>
      intro start
      rw [List.intercalate_cons_cons, ih fun piece hmem => h piece (List.mem_cons_of_mem _ hmem)]
      simp
  have hsplit : [mark].intercalate ([] :: pieces) =
      pieces.flatMap fun piece => mark :: piece := hjoin []
  rw [← hsplit, List.splitOn_intercalate mark _ (List.cons_ne_nil _ _)]
  · rfl
  · intro piece hmem
    rcases List.mem_cons.mp hmem with rfl | hmem
    · exact List.not_mem_nil
    · exact h piece hmem

/-- Below the root a location is the name of the root and a dot in front of every body. -/
private theorem toList_writeLocation {kind : Option String} {ways : List Waypoint}
    (h : ways ≠ []) :
    (writeLocation kind ways).toList = (Context.rootName kind).toList ++
      (ways.map Waypoint.body).flatMap fun piece => '.' :: piece := by
  unfold writeLocation
  rw [if_neg (by simpa using h), String.toList_append, String.toList_join, List.flatMap_map,
    List.flatMap_map]
  congr 2
  funext w
  exact w.toList_write

/-- Only the root is written as the root mark: below it there is a dot. -/
theorem writeLocation_eq_rootMark_iff {kind : Option String} {ways : List Waypoint} :
    writeLocation kind ways = Context.rootMark ↔ ways = [] := by
  constructor
  · intro h
    by_contra hne
    -- A location below the root has a dot in it, and the mark of the root has none.
    have hdot : '.' ∈ (writeLocation kind ways).toList := by
      obtain ⟨w, rest, rfl⟩ := List.exists_cons_of_ne_nil hne
      rw [toList_writeLocation hne]
      simp
    rw [h] at hdot
    revert hdot
    decide
  · rintro rfl
    rfl

/-- What was written is read back, whatever the kind of the root may be. -/
theorem readLocation_writeLocation (kind : Option String) {ways : List Waypoint}
    (h : ∀ w ∈ ways, w.IsPlain) : readLocation kind (writeLocation kind ways) = ways := by
  unfold readLocation
  by_cases hempty : ways = []
  · rw [if_pos (writeLocation_eq_rootMark_iff.mpr hempty), hempty]
  · rw [if_neg fun heq => hempty (writeLocation_eq_rootMark_iff.mp heq)]
    -- The kind is as long as it is known to be, so exactly the pieces are left.
    show ((List.drop _ _).splitOn '.').tail.map Waypoint.read = ways
    rw [toList_writeLocation hempty, List.drop_left, splitOn_flatMap_cons]
    · rw [List.map_map]
      have hread : ∀ w ∈ ways, (Waypoint.read ∘ Waypoint.body) w = id w :=
        fun w hw => Waypoint.read_body (h w hw)
      rw [List.map_congr_left hread, List.map_id]
    · intro piece hmem
      obtain ⟨w, hw, rfl⟩ := List.mem_map.mp hmem
      exact Waypoint.dot_notMem_body (h w hw)

/-! ## The way of a path -/

/-- Whether all names on a path are plain. -/
def IsPlainPath (path : List PathEntry) : Prop :=
  ∀ entry ∈ path, entry.prop.IsPlainName

instance : DecidablePred IsPlainPath :=
  fun path => inferInstanceAs (Decidable (∀ entry ∈ path, entry.prop.IsPlainName))

/-- A path and a way that take the same fields and positions. -/
def Matches (path : List PathEntry) (ways : List Waypoint) : Prop :=
  path.map (fun entry => (entry.prop, entry.index)) =
    ways.map fun w => (Value.str w.field, w.index.map Int.ofNat)

/-- A path is described by writing the waypoints that match it. -/
theorem Matches.describe_eq {path : List PathEntry} {ways : List Waypoint}
    (h : Matches path ways) :
    path.map PathEntry.describe = ways.map Waypoint.write := by
  -- What an entry adds depends on its field and position only.
  let text : Value × Option Int → String := fun turn =>
    PathEntry.describe ⟨.null, turn.1, turn.2⟩
  have hpath : path.map PathEntry.describe =
      (path.map fun entry => (entry.prop, entry.index)).map text := by
    rw [List.map_map]
    rfl
  have hways : ways.map Waypoint.write =
      (ways.map fun w => (Value.str w.field, w.index.map Int.ofNat)).map text := by
    rw [List.map_map]
    apply List.map_congr_left
    intro w _
    obtain ⟨field, index⟩ := w
    cases index with
    | none => rfl
    | some i => rfl
  rw [hpath, hways, h]

namespace Adapter

variable {a : Adapter} {root node : Value} {path : List PathEntry}

/-- The location of what a walk reaches is written from any way that matches the path. -/
theorem Reaches.location_eq (h : a.Reaches root path node) {ways : List Waypoint}
    (hways : Matches path ways) : a.location path = writeLocation (a.kindOf root) ways := by
  unfold location Context.describe writeLocation
  cases path with
  | nil =>
    obtain rfl : ways = [] := by simpa [Matches] using hways.symm
    rfl
  | cons entry rest =>
    have hne : ways.isEmpty = false := by
      cases ways with
      | nil => simp [Matches] at hways
      | cons w rest => rfl
    -- The route starts at the root, so the kind that is written is that of the root.
    have hroot : entry.node = root := Option.some.inj h.isRoute.start
    rw [hways.describe_eq, hne]
    show Context.rootName (a.kindOf entry.node) ++ _ = _
    rw [hroot]
    rfl

end Adapter

/-! ## Following a way -/

namespace Adapter

variable {a : Adapter} {root node child : Value} {path : List PathEntry}

open Value in
/-- The first step of a way leads to the child at its place. -/
theorem IsChild.follow {w : Waypoint} (hchild : a.IsChild node w.slot child)
    (hnames : a.DistinctNames node) (rest : List Waypoint) :
    a.follow node (w :: rest) = a.follow child rest := by
  obtain ⟨-, fields, held, hfields, hfield, hplace⟩ := hchild
  have hheld : entry? w.field fields = some held :=
    entry?_of_mem (hnames fields hfields) hfield
  rw [Adapter.follow, hfields]
  simp only [Option.bind_some, hheld]
  obtain ⟨field, index⟩ := w
  -- A single child is what the field holds, and a child with a position one of its items.
  cases index with
  | none =>
    obtain rfl : held = child := hplace
    rfl
  | some i =>
    obtain ⟨shape, items, rfl, -, hitem⟩ := hplace
    simp [hitem]

open Value in
/-- Two ways are followed one after the other. -/
theorem follow_append (root : Value) (ways more : List Waypoint) :
    a.follow root (ways ++ more) = (a.follow root ways).bind fun node => a.follow node more := by
  induction ways generalizing root with
  | nil => rfl
  | cons w rest ih =>
    rw [List.cons_append, Adapter.follow, Adapter.follow]
    -- Where the first step leads nowhere the whole way does; otherwise it goes on from there.
    cases (a.fields? root).bind fun fields => entry? w.field fields with
    | none => rfl
    | some held =>
      cases w.index with
      | none => exact ih held
      | some i =>
        cases held with
        | group shape items =>
          show (items[i]?.bind fun item => a.follow item (rest ++ more)) = _
          cases hitem : items[i]? with
          | none => simp [hitem]
          | some item => simpa [hitem] using ih item
        | _ => rfl

/-- A path with plain names has a way, and the way leads where the path leads. -/
theorem Reaches.exists_way (h : a.Reaches root path node) (hkeys : root.DistinctKeys)
    (hplain : IsPlainPath path) :
    ∃ ways, Matches path ways ∧ (∀ w ∈ ways, w.IsPlain) ∧ a.follow root ways = some node := by
  -- The induction is on the positions that the walk reaches, from the root on.
  induction h with
  | root => exact ⟨[], rfl, fun w hw => absurd hw List.not_mem_nil, rfl⟩
  | @child path node slot child hnode hchild ih =>
    obtain ⟨ways, hmatches, hways, hfollow⟩ :=
      ih fun entry hentry => hplain entry (List.mem_append_left _ hentry)
    have hslot : slot.prop.IsPlainName :=
      hplain (slot.entry node) (List.mem_append_right _ (List.mem_singleton.mpr rfl))
    obtain ⟨prop, index⟩ := slot
    -- A plain name is a text, so no other key is left.
    cases prop with
    | str name =>
      have hstep : a.follow node [⟨name, index⟩] = some child :=
        IsChild.follow (w := ⟨name, index⟩) hchild (hnode.distinctNames hkeys) []
      apply Exists.intro (ways ++ [⟨name, index⟩])
      refine ⟨?_, ?_, ?_⟩
      · unfold Matches at hmatches ⊢
        rw [List.map_append, List.map_append, hmatches]
        rfl
      · intro w hw
        rcases List.mem_append.mp hw with hw | hw
        · exact hways w hw
        · obtain rfl := List.mem_singleton.mp hw
          exact hslot
      · rw [follow_append, hfollow]
        exact hstep
    | _ => cases hslot

/-- Paths that take the same fields and positions go through the same nodes. -/
theorem Reaches.path_eq (h : a.Reaches root path node) {path' : List PathEntry} {node' : Value}
    (h' : a.Reaches root path' node') (hkeys : root.DistinctKeys)
    (hturns : path.map (fun entry => (entry.prop, entry.index)) =
      path'.map fun entry => (entry.prop, entry.index)) : path = path' := by
  induction h generalizing path' node' with
  | root => exact (List.map_eq_nil_iff.mp hturns.symm).symm
  | @child path node slot child hnode hchild ih =>
    rw [List.map_append] at hturns
    obtain ⟨before, last, rfl, hbefore, hlast⟩ := List.map_eq_append_iff.mp hturns.symm
    obtain ⟨entry, rfl, hentry⟩ := List.map_eq_singleton_iff.mp hlast
    obtain ⟨parent, slot', rfl, hparent, -⟩ := h'.exists_parent
    -- The paths to the parents are the same, so the parents are.
    obtain rfl : path = before := ih hparent hbefore.symm
    obtain rfl : node = parent := hnode.unique hparent hkeys
    obtain ⟨hprop, hindex⟩ := Prod.mk.inj hentry
    show path ++ [⟨node, slot.prop, slot.index.map Int.ofNat⟩] =
      path ++ [⟨node, slot'.prop, slot'.index.map Int.ofNat⟩]
    simp only [Slot.entry] at hprop hindex
    rw [hprop, hindex]

end Adapter

/-! ## Locations -/

/-- What the location of a node tells about it.  With the kind of the root it gives the way that
    it was written from: the fields and positions of the path, and the way leads from the root
    to the node. -/
structure Located (a : Adapter) (root : Value) (path : List PathEntry) (node : Value) : Prop where
  atRoot : a.location path = Context.rootMark ↔ path = []
  written : a.location path = writeLocation (a.kindOf root)
    (readLocation (a.kindOf root) (a.location path))
  turns : Matches path (readLocation (a.kindOf root) (a.location path))
  leads : a.follow root (readLocation (a.kindOf root) (a.location path)) = some node

/-- A path with plain names is told by its location. -/
theorem Adapter.Reaches.located {a : Adapter} {root node : Value} {path : List PathEntry}
    (h : a.Reaches root path node) (hkeys : root.DistinctKeys) (hplain : IsPlainPath path) :
    Located a root path node := by
  obtain ⟨ways, hmatches, hways, hfollow⟩ := h.exists_way hkeys hplain
  have hlocation : a.location path = writeLocation (a.kindOf root) ways := h.location_eq hmatches
  have hread : readLocation (a.kindOf root) (a.location path) = ways := by
    rw [hlocation]
    exact readLocation_writeLocation _ hways
  constructor
  · rw [hlocation, writeLocation_eq_rootMark_iff]
    -- A path is as long as its way.
    have hlength := congrArg List.length hmatches
    simp only [List.length_map] at hlength
    rw [← List.length_eq_zero_iff, ← List.length_eq_zero_iff]
    omega
  · rw [hread]
    exact hlocation
  · rw [hread]
    exact hmatches
  · rw [hread]
    exact hfollow

/-! ## Breaches -/

/-- The breach that a reply amounts to, if it is one. -/
def Reply.breach? : Reply ε α → Option Breach
  | .finished none => some .missingResult
  | .suspended => some .suspendedTwice
  | .failed _ | .finished (some _) => none

/-- Whether a breach is reported at the node where it happened: the step that was resumed there
    broke its contract. -/
def Breached (a : Adapter) (moments : List (Moment ε α)) (breach : Breach) (place : Place) : Prop :=
  ∃ path node results reply, .resumed node path results reply ∈ moments ∧
    reply.breach? = some breach ∧ place = a.placeOf path node

variable {a : Adapter} {verbosity : Option VerbositySetting} {breach : Breach} {place : Place}

/-- A breach that has been told stays told as the walk goes on. -/
theorem Breached.mono {moments more : List (Moment ε α)} (h : Breached a moments breach place)
    (hsub : moments ⊆ more) : Breached a more breach place := by
  obtain ⟨path, node, results, reply, hmem, hreply, hplace⟩ := h
  exact ⟨path, node, results, reply, hsub hmem, hreply, hplace⟩

/-- A resumption that fails with a breach tells of it. -/
theorem Resumption.breached {path : List PathEntry} {node : Value} {children : Children α}
    {moments : List (Moment ε α)} {fin : Except (Failure ε) (Option α)}
    (h : Resumption a verbosity path node children moments fin)
    (hfin : failure? fin = some (.breach breach place)) : Breached a moments breach place := by
  cases h with
  | failed e => cases hfin
  | finished result => cases hfin
  | closeFailed e => cases hfin
  | missing =>
    obtain ⟨rfl, rfl⟩ := Failure.breach.inj (Option.some.inj hfin)
    exact ⟨path, node, children, .finished none, List.mem_cons_self, rfl, rfl⟩
  | closed =>
    obtain ⟨rfl, rfl⟩ := Failure.breach.inj (Option.some.inj hfin)
    exact ⟨path, node, children, .suspended, List.mem_cons_self, rfl, rfl⟩

mutual

/-- A breach that ends the visit of a node is reported where it happened. -/
theorem Visit.breached {path : List PathEntry} {acc : Option α} {node : Value}
    {moments : List (Moment ε α)} {fin : Except (Failure ε) (Option α)}
    (h : Visit a verbosity path acc node moments fin)
    (hfin : failure? fin = some (.breach breach place)) : Breached a moments breach place := by
  match h with
  | .failed e => cases hfin
  | .sealed answer hanswer hchildren => cases hfin
  | .finished result hchildren hinner =>
    -- A node that is not resumed fails as its children do.
    rw [failure?_map] at hfin
    apply (hinner.breached hfin).mono
    intro m hm
    exact List.mem_append_right _ (List.mem_cons_of_mem _ hm)
  | .interrupted yielded failure hchildren hinner =>
    apply (hinner.breached hfin).mono
    intro m hm
    exact List.mem_append_right _ (List.mem_cons_of_mem _ hm)
  | .resumed yielded hchildren hinner hafter =>
    apply (hafter.breached hfin).mono
    intro m hm
    exact List.mem_append_right _ (List.mem_cons_of_mem _ (List.mem_append_right _ hm))
termination_by structural h

/-- So do the visits of children. -/
theorem VisitAll.breached {path : List PathEntry} {acc : Option α} {parent : Value}
    {children : List (Slot × Value)} {moments : List (Moment ε α)}
    {fin : Except (Failure ε) (List (Slot × Option α))}
    (h : VisitAll a verbosity path parent acc children moments fin)
    (hfin : failure? fin = some (.breach breach place)) : Breached a moments breach place := by
  match h with
  | .nil => cases hfin
  | .failed slot child rest hfirst => exact hfirst.breached hfin
  | .cons slot child rest hfirst hrest =>
    rw [failure?_map] at hfin
    apply (hrest.breached hfin).mono
    intro m hm
    exact List.mem_append_right _ hm
termination_by structural h

end

/-! ## Whole walks -/

/-- Below a root with distinct keys, in any walk: the location of every visited node whose path
    has plain names tells the fields and positions of the path and leads from the root to the
    node; nodes visited by different paths have different locations; and if the walk ends with a
    breach, the location in it is that of the node whose step broke its contract. -/
theorem traverse_located (root : Value) (step : Step σ ε α) (init : Option α) (own : σ)
    (adapter : Option Adapter) (logger : Option (Logger σ)) (hkeys : root.DistinctKeys) :
    let a := adapter.getD (.default root)
    let moments := history root step init own adapter logger
    (∀ m ∈ moments, ∀ path node, m.position? = some (path, node) → IsPlainPath path →
      Located a root path node) ∧
    (∀ m ∈ moments, ∀ m' ∈ moments, ∀ path node path' node',
      m.position? = some (path, node) → m'.position? = some (path', node') →
      IsPlainPath path → IsPlainPath path' →
      a.location path = a.location path' → path = path' ∧ node = node') ∧
    ∀ breach place,
      (traverse root step init own adapter logger).outcome = .error (.breach breach place) →
      ∃ path node results reply, .resumed node path results reply ∈ moments ∧
        reply.breach? = some breach ∧ place = a.placeOf path node ∧
        (IsPlainPath path → a.follow root (readLocation (a.kindOf root) place.location) =
          some node) := by
  intro a moments
  have hreaches : ∀ m ∈ moments, ∀ path node, m.position? = some (path, node) →
      a.Reaches root path node := by
    intro m hm path node hposition
    obtain ⟨past, hplaced⟩ :=
      (history_placed root step init own adapter logger).exists_of_mem hm
    exact hplaced.reaches hposition
  refine ⟨?_, ?_, ?_⟩
  · intro m hm path node hposition hplain
    exact (hreaches m hm path node hposition).located hkeys hplain
  · intro m hm m' hm' path node path' node' hposition hposition' hplain hplain' heq
    have hreach := hreaches m hm path node hposition
    have hreach' := hreaches m' hm' path' node' hposition'
    have hturns := (hreach.located hkeys hplain).turns
    have hturns' := (hreach'.located hkeys hplain').turns
    -- One location is read in one way.
    rw [heq] at hturns
    obtain rfl : path = path' := hreach.path_eq hreach' hkeys (hturns.trans hturns'.symm)
    exact ⟨rfl, hreach.unique hreach' hkeys⟩
  · intro breach place houtcome
    have hvisit := (visit_history root step init own adapter logger).1
    rw [houtcome] at hvisit
    obtain ⟨path, node, results, reply, hmem, hreply, rfl⟩ := hvisit.breached rfl
    refine ⟨path, node, results, reply, hmem, hreply, rfl, ?_⟩
    intro hplain
    exact ((hreaches _ hmem path node rfl).located hkeys hplain).leads

/-- A document whose root has a kind that looks like a location. -/
def dottedRoot : Value :=
  .dict [(.str "type", .str "a.b[0]"),
    (.str "body", .list [.dict [(.str "type", .str "Empty")],
      .dict [(.str "type", .str "Return"),
        (.str "argument", .dict [(.str "type", .str "Hole")])]])]

/-- The place of a breach, if a walk ended with one. -/
def Failure.place? : Except (Failure ε) (Option α) → Option Place
  | .error (.breach _ place) => some place
  | _ => none

/-- A step that gives no result for a hole breaks its contract there; the location is that of
    the hole and leads to it. -/
theorem traverse_located_dottedRoot :
    let step : Step Unit Unit Nat := Step.bottomUp fun node _ context =>
      return if context.kindOf node == some "Hole" then none else some 0
    dottedRoot.DistinctKeys ∧ ∃ place node,
      Failure.place? (traverse dottedRoot step none () none none).outcome = some place ∧
      place = ⟨some "Hole", "a.b[0].body[1].argument"⟩ ∧
      readLocation (some "a.b[0]") place.location = [⟨"body", some 1⟩, ⟨"argument", none⟩] ∧
      Adapter.tagged.follow dottedRoot [⟨"body", some 1⟩, ⟨"argument", none⟩] = some node ∧
      Adapter.tagged.kindOf node = some "Hole" := by
  intro step
  have hkeys : dottedRoot.DistinctKeys := by
    simp [dottedRoot, Value.DistinctKeys, Value.DistinctKeysEntries, Value.DistinctKeysItems]
  have hplace : Failure.place? (traverse dottedRoot step none () none none).outcome =
      some ⟨some "Hole", "a.b[0].body[1].argument"⟩ := by
    decide +kernel
  -- No name on the way has a dot or a bracket, unlike the kind of the root.
  have hplain : ∀ m ∈ history dottedRoot step none () none none,
      ∀ position ∈ m.position?, IsPlainPath position.1 := by
    decide +kernel
  have hread : readLocation (some "a.b[0]") "a.b[0].body[1].argument" =
      [⟨"body", some 1⟩, ⟨"argument", none⟩] := by
    decide +kernel
  cases houtcome : (traverse dottedRoot step none () none none).outcome with
  | ok result => simp [houtcome, Failure.place?] at hplace
  | error failure =>
    cases failure with
    | step e => simp [houtcome, Failure.place?] at hplace
    | noFields typeName => simp [houtcome, Failure.place?] at hplace
    | breach breach place =>
      obtain rfl : place = ⟨some "Hole", "a.b[0].body[1].argument"⟩ := by
        simpa [houtcome, Failure.place?] using hplace
      obtain ⟨-, -, hbreach⟩ := traverse_located dottedRoot step none () none none hkeys
      obtain ⟨path, node, results, reply, hmem, -, hnode, hleads⟩ := hbreach breach _ houtcome
      have hfollow := hleads (hplain _ hmem (path, node) rfl)
      have hkind : Adapter.tagged.kindOf dottedRoot = some "a.b[0]" := by decide +kernel
      refine ⟨hkeys, _, node, rfl, rfl, hread, ?_, (congrArg Place.kind hnode).symm⟩
      rw [← hread, ← hkind]
      exact hfollow

end TreeWalk
