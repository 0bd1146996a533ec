import TreeWalk.Proofs.Consoles
import TreeWalk.Proofs.GatheredLines
import TreeWalk.Proofs.ScopeOutline
import TreeWalk.Proofs.Statuses
import TreeWalk.Proofs.Summaries

/-! # What the program prints

The program takes what it prints for markup.  On a terminal with documented behaviour kinds, labels
and messages that hold none come out as they are, and a listing of kinds comes out so only if no
kind holds any.

## Key results

* `Session.exists_listed_iff` says when texts printed in a row are printed in full.
* `Session.exists_counts_eq` finds the kinds in the table of counts.
* `Session.exists_scopes_eq` finds the labels in the outline of scopes.
* `run_verbatim` says so of whole runs.
-/

namespace TreeWalk

namespace Terminal

/-- Lines show texts one after the other, with nothing left out. -/
def Listed (width : Nat) (texts lines : List (List Char)) : Prop :=
  ∃ blocks, lines = blocks.flatten ∧
    List.Forall₂ (fun text block => Wrap.Shows width text block ∧ block.flatten = text) texts blocks

/-- The lines, put together, are the texts. -/
theorem Listed.flatten_eq {width : Nat} {texts lines : List (List Char)}
    (h : Listed width texts lines) : lines.flatten = texts.flatten := by
  obtain ⟨blocks, rfl, hblocks⟩ := h
  induction hblocks with
  | nil => rfl
  | cons hblock _ ih => rw [List.flatten_cons, List.flatten_append, hblock.2, ih, List.flatten_cons]

/-- What comes out tells what the texts that are shown there hold together. -/
theorem Listed.filter_eq {width : Nat} {texts lines : List (List Char)}
    (h : Listed width texts lines) (htexts : ∀ text ∈ texts, Wrap.Ascii text) :
    (ofLines lines).toList.filter (· != '\n') = texts.flatten := by
  rw [filter_ofLines, h.flatten_eq]
  intro line hline hmem
  have hmem : '\n' ∈ texts.flatten := h.flatten_eq ▸ List.mem_flatten_of_mem hline hmem
  obtain ⟨text, htext, hmem⟩ := List.mem_flatten.mp hmem
  exact absurd (htexts text htext '\n' hmem).1 (by decide)

variable {terminal : Terminal}

/-- A text that is to be listed: printable ASCII characters without blanks and emoji. -/
structure Plain (terminal : Terminal) (text : List Char) : Prop where
  ascii : Wrap.Ascii text
  nonblank : ' ' ∉ text
  emojiFree : terminal.EmojiFree text

/-- A literal text is printed in lines that show it. -/
theorem Documented.exists_marked_eq (hdocumented : terminal.Documented) {text : String}
    (h : terminal.Literal text.toList) : ∃ lines, Wrap.Shows terminal.width text.toList lines ∧
      terminal.marked text = .ok (ofLines lines) := by
  have hmarked := hdocumented.marked_shows _ _ (.literal h)
  rwa [String.ofList_toList] at hmarked

/-- No more than the characters of a text come out, and all of them only if there is no markup. -/
theorem Documented.length_filter_le (hdocumented : terminal.Documented) {text out : String}
    (h : terminal.Plain text.toList) (hout : terminal.marked text = .ok out) :
    (out.toList.filter (· != '\n')).length ≤ text.toList.length ∧
      (text.toList.length ≤ (out.toList.filter (· != '\n')).length →
        Markup.Unmarked text.toList) := by
  by_cases hunmarked : Markup.Unmarked text.toList
  · obtain ⟨lines, hshows, hmarked⟩ :=
      hdocumented.exists_marked_eq ⟨h.ascii, hunmarked, h.emojiFree⟩
    obtain rfl := Except.ok.inj (hmarked.symm.trans hout)
    rw [filter_ofLines_of_shows hshows h.ascii h.nonblank]
    exact ⟨Nat.le_refl _, fun _ => hunmarked⟩
  · have hlost := hdocumented.marked_loses _ h.ascii h.nonblank h.emojiFree hunmarked out
      (by rwa [String.ofList_toList])
    exact ⟨hlost.le, fun hle => absurd hle (Nat.not_le.mpr hlost)⟩

/-- The same of texts that are printed one after the other. -/
theorem Documented.length_filter_join_le (hdocumented : terminal.Documented)
    {texts outs : List String} (h : ∀ text ∈ texts, terminal.Plain text.toList)
    (houts : List.Forall₂ (fun text out => terminal.marked text = .ok out) texts outs) :
    ((String.join outs).toList.filter (· != '\n')).length ≤
        (texts.map String.toList).flatten.length ∧
      ((texts.map String.toList).flatten.length ≤
          ((String.join outs).toList.filter (· != '\n')).length →
        ∀ text ∈ texts, Markup.Unmarked text.toList) := by
  induction houts with
  | nil => exact ⟨Nat.le_refl _, fun _ text htext => absurd htext List.not_mem_nil⟩
  | @cons text out texts outs hout _ ih =>
    obtain ⟨htext, htexts⟩ := List.forall_mem_cons.mp h
    obtain ⟨hfirst, hfirst'⟩ := hdocumented.length_filter_le htext hout
    obtain ⟨hrest, hrest'⟩ := ih htexts
    rw [String.join_cons, String.toList_append, List.filter_append, List.length_append,
      List.map_cons, List.flatten_cons, List.length_append]
    refine ⟨by omega, fun hle => List.forall_mem_cons.mpr ⟨hfirst' (by omega), hrest' ?_⟩⟩
    omega

end Terminal

namespace Program

namespace Session

variable {packages : Packages} {terminal : Terminal} {printed : String}

/-! ## Listings -/

/-- Literal texts without blanks are printed in full. -/
theorem exists_outs_listed (hdocumented : terminal.Documented) {texts : List String}
    (h : ∀ text ∈ texts, terminal.Literal text.toList ∧ ' ' ∉ text.toList) :
    ∃ outs lines, List.Forall₂ (fun text out => terminal.marked text = .ok out) texts outs ∧
      String.join outs = Terminal.ofLines lines ∧
      Terminal.Listed terminal.width (texts.map String.toList) lines := by
  induction texts with
  | nil => exact ⟨[], [], .nil, rfl, [], rfl, .nil⟩
  | cons text texts ih =>
    obtain ⟨⟨hliteral, hspace⟩, htexts⟩ := List.forall_mem_cons.mp h
    obtain ⟨block, hshows, hmarked⟩ := hdocumented.exists_marked_eq hliteral
    obtain ⟨outs, lines, houts, hjoin, blocks, rfl, hblocks⟩ := ih htexts
    refine ⟨_ :: outs, block ++ blocks.flatten, .cons hmarked houts, ?_, block :: blocks, rfl,
      .cons ⟨hshows, hshows.joined hspace⟩ hblocks⟩
    rw [String.join_cons, hjoin, Terminal.ofLines_append]

/-- Texts without blanks and emoji are printed in full if and only if they are without markup. -/
theorem exists_listed_iff (hdocumented : terminal.Documented) {texts : List String}
    (h : ∀ text ∈ texts, terminal.Plain text.toList) :
    (∃ lines, Terminal.Listed terminal.width (texts.map String.toList) lines ∧
        texts.forM (print terminal) "" = .ok () (Terminal.ofLines lines)) ↔
      ∀ text ∈ texts, Markup.Unmarked text.toList := by
  constructor
  · rintro ⟨lines, hlisted, hprint⟩
    rcases forM_print_cases texts "" with ⟨outs, houts⟩ | ⟨cause, printed', hcrash⟩
    · rw [forM_print_of_marked houts, String.empty_append] at hprint
      have hjoin : String.join outs = Terminal.ofLines lines := by
        injection hprint
      -- As many characters have come out as there are in the texts, so nothing has been lost.
      refine (hdocumented.length_filter_join_le h houts).2 ?_
      rw [hjoin, hlisted.filter_eq (List.forall_mem_map.mpr fun text htext => (h text htext).ascii)]
    · rw [hcrash] at hprint
      cases hprint
  · intro hunmarked
    obtain ⟨outs, lines, houts, hjoin, hlisted⟩ := exists_outs_listed hdocumented
      fun text htext => ⟨⟨(h text htext).ascii, hunmarked text htext, (h text htext).emojiFree⟩,
        (h text htext).nonblank⟩
    exact ⟨lines, hlisted, by rw [forM_print_of_marked houts, hjoin, String.empty_append]⟩

/-- At the quiet level the kinds of the nodes are printed in pre-order, and nothing else. -/
theorem kinds_quiet {d : Document} {kinds : List String}
    (hnode : d.adapter.isNode d.root = true)
    (hkinds : d.adapter.kindsAt (d.adapter.stops d.root) = kinds.map some) :
    Session.kinds packages d .quiet printed = kinds.forM (print packages.terminal) printed := by
  let quiet : VerbositySetting := .level .quiet
  have hadapter : (some d.adapter).getD (.default d.root) = d.adapter := rfl
  -- At this level nothing is logged, and the items of the listing are the kinds.
  obtain ⟨houtcome, hlisting⟩ := listKinds_eq hadapter hnode [] (some quiet)
  have hlines : (listKinds d.root (.list []) d.adapter (some quiet)).own.lines = [] :=
    lines_traverseLogged_of_ok rfl houtcome
  have hitems : (listKinds d.root (.list []) d.adapter (some quiet)).own.own.filterMap Value.text? =
      kinds := by
    have hown : (listKinds d.root (.list []) d.adapter (some quiet)).own.own =
        (kinds.map some).map kindItem := by
      rw [← hkinds]
      exact hlisting
    rw [hown, List.map_map, List.filterMap_map]
    exact List.filterMap_some
  unfold Session.kinds
  simp only [quiet] at hlines hitems
  simp only [hlines, hitems]
  rfl

/-! ## Tables of counts -/

/-- The digits of a number are printed as they stand. -/
theorem literal_digits (n : Nat) : terminal.Literal (toString (n : Int)).toList := by
  have hdigits : (toString (n : Int)).toList = Nat.toDigits 10 n := Nat.toList_repr
  have hdigit : ∀ c ∈ (toString (n : Int)).toList, c.isDigit = true := by
    intro c hc
    rw [hdigits] at hc
    exact Nat.isDigit_of_mem_toDigits (by decide) (by decide) hc
  -- Digits are plain characters, none of them a bracket or a colon.
  refine Terminal.literal_of_not_mem (fun c hc => ?_) (fun hc => ?_) (fun hc => ?_)
  · have hrange := hdigit c hc
    simp only [Char.isDigit, Bool.and_eq_true, decide_eq_true_eq] at hrange
    have hle : 48 ≤ c.toNat := hrange.1
    have hge : c.toNat ≤ 57 := hrange.2
    omega
  · exact absurd (hdigit _ hc) (by decide)
  · exact absurd (hdigit _ hc) (by decide)

/-- Numbers that are not too long are all written. -/
theorem mapM_write {entries : List (String × Int)}
    (h : ∀ entry ∈ entries, Numeral.fits entry.2 = true) :
    entries.mapM (fun entry => Numeral.write entry.2) =
      .ok (entries.map fun entry => toString entry.2) := by
  induction entries with
  | nil => rfl
  | cons entry entries ih =>
    obtain ⟨hentry, hentries⟩ := List.forall_mem_cons.mp h
    rw [List.mapM_cons, Numeral.write, if_pos hentry, ih hentries]
    rfl

/-- A number that is too long is not written. -/
theorem mapM_write_eq_error {entries : List (String × Int)}
    (h : ∃ entry ∈ entries, Numeral.fits entry.2 = false) :
    entries.mapM (fun entry => Numeral.write entry.2) = .error {} := by
  -- The entries are written in order up to the first that is too long.
  induction entries with
  | nil =>
    obtain ⟨entry, hentry, -⟩ := h
    exact absurd hentry List.not_mem_nil
  | cons first entries ih =>
    rw [List.mapM_cons, Numeral.write]
    split
    · next hfits =>
      obtain ⟨entry, hentry, hlong⟩ := h
      rcases List.mem_cons.mp hentry with rfl | hentry
      · rw [hfits] at hlong
        cases hlong
      · rw [ih ⟨entry, hentry, hlong⟩]
        rfl
    · rfl

/-- In the table of counts there are rows that show each kind. -/
theorem exists_counts_eq (hdocumented : terminal.Documented) (hwidth : 16 ≤ terminal.width)
    {entries : List (String × Int)} (hne : entries ≠ [])
    (hnat : ∀ entry ∈ entries, ∃ n : Nat, entry.2 = n)
    (hfits : ∀ entry ∈ entries, Numeral.fits entry.2 = true)
    (hliteral : ∀ entry ∈ entries, terminal.Literal entry.1.toList) :
    ∃ table, Report.counts terminal entries = .ok (Terminal.ofLines table) ∧
      ∀ entry ∈ entries, Table.Holds table entry.1.toList := by
  -- Both columns hold nothing but literal texts: the headings, the kinds and the counts.
  let kinds := entries.map fun entry => entry.1.toList
  let counts := (entries.map fun entry => toString entry.2).map String.toList
  have hword : ∀ {text : List Char}, Wrap.Ascii text → '[' ∉ text → ':' ∉ text →
      terminal.Literal text := fun hascii hbracket hcolon =>
    Terminal.literal_of_not_mem hascii hbracket hcolon
  have hkinds : ∀ text ∈ "Kind".toList :: kinds, terminal.Literal text := by
    rw [List.forall_mem_cons]
    exact ⟨hword (by decide) (by decide) (by decide), List.forall_mem_map.mpr hliteral⟩
  have hcounts : ∀ text ∈ "Count".toList :: counts, terminal.Literal text := by
    refine List.forall_mem_cons.mpr ⟨hword (by decide) (by decide) (by decide), ?_⟩
    simp only [counts, List.forall_mem_map]
    intro entry hentry
    obtain ⟨n, hn⟩ := hnat entry hentry
    rw [hn]
    exact literal_digits n
  have hheadings : 4 ≤ "Kind".toList.length ∧ 4 ≤ "Count".toList.length := by decide
  obtain ⟨table, htable, hholds⟩ := hdocumented.table_holds "Node Kinds".toList
    { heading := "Kind".toList, overflow := .fold, cells := kinds }
    { heading := "Count".toList, justify := .right, cells := counts }
    (hword (by decide) (by decide) (by decide)) rfl rfl
    (List.forall_mem_cons.mpr ⟨⟨hheadings.1, hkinds⟩,
      List.forall_mem_singleton.mpr ⟨hheadings.2, hcounts⟩⟩) hwidth
  have htable : terminal.table (Report.countsTable kinds counts) = .ok (Terminal.ofLines table) :=
    htable
  refine ⟨table, ?_, fun entry hentry => hholds _ (List.mem_map_of_mem hentry)⟩
  unfold Report.counts
  rw [List.isEmpty_eq_false_iff.mpr hne, mapM_write hfits]
  show (terminal.table (Report.countsTable kinds counts)).mapError Report.Error.markup = _
  rw [htable]
  rfl

/-- A count that is too long ends the report. -/
theorem counts_eq_error {entries : List (String × Int)}
    (h : ∃ entry ∈ entries, Numeral.fits entry.2 = false) :
    Report.counts terminal entries = .error (.integer {}) := by
  obtain ⟨entry, hentry, -⟩ := id h
  unfold Report.counts
  rw [List.isEmpty_eq_false_iff.mpr (List.ne_nil_of_mem hentry), mapM_write_eq_error h]
  rfl

/-- A tree has nodes. -/
theorem stops_ne_nil (a : Adapter) (root : Value) : a.stops root ≠ [] := by
  obtain ⟨stop, hstop, -⟩ := (a.exists_stop_iff root [] root).mpr .root
  exact List.ne_nil_of_mem hstop

section

variable {d : Document} {kinds : List String} (hnode : d.adapter.isNode d.root = true)
  (hseparate : d.adapter.SeparateBelow d.root)
  (hkinds : d.adapter.kindsAt (d.adapter.stops d.root) = kinds.map some) (verbosity : Verbosity)

include hnode hseparate hkinds

variable (packages printed) in
/-- The counts and the depth are reported behind the log. -/
theorem stats_console : ∃ (log : List String) (depth : Nat),
    Session.stats packages d verbosity .console printed =
      (do
        report (Report.counts packages.terminal (Summary.countsOf kinds))
        print packages.terminal ("Max depth: " ++ toString (depth : Int)))
      (printed ++ packages.terminal.literals log) := by
  have hsummary := ofDocument_eq d hnode hseparate hkinds (some (.level verbosity))
  cases hpair : Summary.ofDocument d (some (.level verbosity)) with
  | mk summary lines =>
    rw [hpair] at hsummary
    obtain rfl : summary = _ := hsummary
    refine ⟨lines, (d.adapter.view d.root).fold gatherDepth, ?_⟩
    unfold Session.stats
    rw [hpair]
    exact bind_of_ok (forM_printLog lines)

/-- The kinds of a document stand in the table of its counts. -/
theorem exists_stats_eq (hdocumented : packages.terminal.Documented)
    (hwidth : 16 ≤ packages.terminal.width)
    (hfits : ∀ kind ∈ kinds, Numeral.fits (kinds.count kind) = true)
    (hliteral : ∀ kind ∈ kinds, packages.terminal.Literal kind.toList) :
    ∃ log table last, ∃ depth : Int, Session.stats packages d verbosity .console printed =
        .ok () (printed ++ packages.terminal.literals log ++ Terminal.ofLines table ++
          Terminal.ofLines last) ∧
      (∀ kind ∈ kinds, Table.Holds table kind.toList) ∧
      Wrap.Shows packages.terminal.width ("Max depth: " ++ toString depth).toList last := by
  -- The tree has a node, so the table is printed and not the message that nothing was counted.
  have hcounts : Summary.countsOf kinds ≠ [] := by
    intro hnil
    have hkind : kinds ≠ [] := by
      rintro rfl
      exact stops_ne_nil d.adapter d.root (List.map_eq_nil_iff.mp hkinds)
    obtain ⟨kind, hmem⟩ := List.exists_mem_of_ne_nil _ hkind
    have hkey := Summary.mem_keys_countsOf.mpr hmem
    rw [hnil] at hkey
    cases hkey
  have hentry : ∀ entry ∈ Summary.countsOf kinds,
      entry.1 ∈ kinds ∧ entry.2 = kinds.count entry.1 :=
    fun entry hentry => Summary.mem_countsOf.mp hentry
  obtain ⟨table, hreport, hrows⟩ := exists_counts_eq hdocumented hwidth hcounts
    (fun entry hmem => ⟨_, (hentry entry hmem).2⟩)
    (fun entry hmem => (hentry entry hmem).2 ▸ hfits _ (hentry entry hmem).1)
    (fun entry hmem => hliteral _ (hentry entry hmem).1)
  obtain ⟨log, depth, hstats⟩ := stats_console packages printed hnode hseparate hkinds verbosity
  have hdepth : packages.terminal.Literal ("Max depth: " ++ toString (depth : Int)).toList := by
    have htext : ("Max depth: " ++ toString (depth : Int)).toList =
        "Max depth".toList ++ ':' :: ' ' :: (toString (depth : Int)).toList := by
      rw [String.toList_append]
      rfl
    rw [htext]
    exact (literal_digits depth).of_start hdocumented (by decide) (by decide) (by decide)
  obtain ⟨last, hshows, hmarked⟩ := hdocumented.exists_marked_eq hdepth
  refine ⟨log, table, last, depth, ?_, fun kind hkind => ?_, hshows⟩
  · rw [hstats, hreport, bind_of_ok report_ok, print_of_marked hmarked]
  · obtain ⟨entry, hmem, rfl⟩ := List.mem_map.mp (Summary.mem_keys_countsOf.mpr hkind)
    exact hrows entry hmem

/-- No table is printed if a count is too long. -/
theorem exists_stats_crash (hlong : ∃ kind ∈ kinds, Numeral.fits (kinds.count kind) = false) :
    ∃ log, Session.stats packages d verbosity .console printed =
      .error (.crash (.report (.integer {}))) (printed ++ packages.terminal.literals log) := by
  obtain ⟨kind, hkind, hlong⟩ := hlong
  obtain ⟨log, depth, hstats⟩ := stats_console packages printed hnode hseparate hkinds verbosity
  have hentry : (kind, (kinds.count kind : Int)) ∈ Summary.countsOf kinds :=
    Summary.mem_countsOf.mpr ⟨hkind, rfl⟩
  refine ⟨log, ?_⟩
  rw [hstats, counts_eq_error ⟨_, hentry, hlong⟩]
  rfl

end

/-! ## Outlines of scopes -/

/-- If the scopes of a document can be collected, their labels stand in an outline. -/
theorem exists_scopes_eq (hdocumented : packages.terminal.Documented) {d : Document}
    {scope : Option Nat}
    (hwalk : (traverse d.root collectScopes (some 0) (#[{}] : ScopeStore) d.adapter).outcome =
      .ok scope) {tree : ScopeTree}
    (htree : ScopeStore.tree (traverse d.root collectScopes (some 0) (#[{}] : ScopeStore)
      d.adapter).own (scope.getD 0) = tree)
    (hliteral : ∀ entry ∈ tree.levels 0, entry.2.isEmpty = false →
      packages.terminal.Literal (Report.label d.adapter entry.2)) (verbosity : Verbosity) :
    ∃ log blocks, Session.scopes packages d verbosity printed =
        .ok () (printed ++ packages.terminal.literals log ++ Terminal.ofLines blocks.flatten) ∧
      List.Forall₂ (fun entry block => Outline.Shows packages.terminal.width
        (entry.1, Report.label d.adapter entry.2) block) (tree.levels 0) blocks := by
  let ending := traverseLogged d.root collectScopes (some 0) (#[{}] : ScopeStore) d.adapter
    (some (.level verbosity))
  obtain ⟨houtcome, hown⟩ := traverseLogged_eq d.root collectScopes (some 0) (#[{}] : ScopeStore)
    (some d.adapter) (some (.level verbosity))
  rw [hwalk] at houtcome
  obtain ⟨blocks, hreport, hshows⟩ := Report.exists_scopes_eq hdocumented d.adapter tree hliteral
  -- What is printed from the walk on does not depend on what has been printed before.
  have hending : ∀ printed, (ending.own.lines.forM (printLog packages.terminal) >>= fun _ =>
      report ((Report.scopes packages.terminal d.adapter tree).mapError .markup)) printed =
        .ok () (printed ++ packages.terminal.literals ending.own.lines ++
          Terminal.ofLines blocks.flatten) := by
    intro printed
    rw [bind_of_ok (forM_printLog _), hreport]
    exact report_ok
  unfold Session.scopes
  simp only [houtcome, hown, htree]
  by_cases hsource : d.format = .source
  · simp only [hsource, ↓reduceIte]
    let warning := (VerbositySetting.level verbosity).lines .warning (sourceWarning d.path)
    refine ⟨warning ++ ending.own.lines, blocks, ?_, hshows⟩
    have hwarning : log packages.terminal verbosity .warning (sourceWarning d.path) printed =
        .ok () (printed ++ packages.terminal.literals warning) := forM_printLog warning
    rw [bind_of_ok hwarning, hending, Terminal.literals_append, ← String.append_assoc]
  · simp only [hsource, ↓reduceIte]
    exact ⟨ending.own.lines, blocks, hending printed, hshows⟩

/-! ## Failures -/

/-- A message that can be printed as it stands is shown behind what went wrong. -/
theorem fail_of_literal (hdocumented : terminal.Documented) (what : String) {message : String}
    (hwhat : Wrap.Ascii what.toList) (hbracket : '[' ∉ what.toList) (hcolon : ':' ∉ what.toList)
    (h : terminal.Literal message.toList) (hlast : message.toList.getLast? ≠ some '\\')
    (printed : String) :
    ∃ lines, Wrap.Shows terminal.width (what ++ ": " ++ message).toList lines ∧
      (fail terminal what message : Session α) printed =
        .error (.status failureStatus) (printed ++ Terminal.ofLines lines) := by
  have htext : (what ++ ": " ++ message).toList = what.toList ++ ':' :: ' ' :: message.toList := by
    rw [String.toList_append, String.toList_append, List.append_assoc]
    rfl
  have hliteral : terminal.Literal ([] ++ (what ++ ": " ++ message).toList) := by
    rw [List.nil_append, htext]
    exact h.of_start hdocumented hwhat hbracket hcolon
  have hend : (what ++ ": " ++ message).toList.getLast? ≠ some '\\' := by
    rw [String.toList_append, List.getLast?_append]
    cases hmessage : message.toList.getLast? with
    | none =>
      rw [String.toList_append, List.getLast?_append]
      exact (by decide : some ' ' ≠ some '\\')
    | some c => rwa [hmessage] at hlast
  have hstyle : Terminal.IsStyle ['r', 'e', 'd'] := by decide
  -- The tags around the text are the only ones in it.
  obtain ⟨lines, hshows, hmarked⟩ := hdocumented.marked_shows _ _
    (.styled hstyle List.not_mem_nil (by decide) hend hliteral)
  refine ⟨lines, hshows, fail_of_marked ?_⟩
  rw [← hmarked]
  refine congrArg terminal.marked (String.toList_inj.mp ?_)
  simp only [String.toList_append, String.toList_ofList]
  simp

end Session

/-! ## Runs -/

variable {packages : Packages} {find : String → Option FileEntry} {words : List String}
  {i : Invocation} {format : Session.OutputFormat} {config : Config} {d : Document}

namespace Started

variable (h : Started packages find words i format) (hdocumented : packages.terminal.Documented)

include h hdocumented

/-- Settings that cannot be read end a run with a line that shows why. -/
theorem run_of_config_error {path : String} {error : ConfigError} (hconfig : i.config = some path)
    (hload : Config.load packages.readers find (PathName.normalize path) = .error error)
    (hliteral : packages.terminal.Literal error.message.toList)
    (hlast : error.message.toList.getLast? ≠ some '\\') :
    ∃ lines, Wrap.Shows packages.terminal.width
        ("Error loading config: " ++ error.message).toList lines ∧
      run packages find words = ⟨failureStatus, Terminal.ofLines lines, none⟩ := by
  have hwhat : "Error loading config" ++ ": " = "Error loading config: " := by decide +kernel
  obtain ⟨lines, hshows, hfail⟩ := Session.fail_of_literal (α := Config) hdocumented
    "Error loading config" (by decide) (by decide) (by decide) hliteral hlast ""
  rw [String.empty_append] at hfail
  rw [hwhat] at hshows
  have hsettings := Session.settings_of_load_error hconfig hload hfail
  exact ⟨lines, hshows, h.run_of_status (h.invoke_of_settings_error hsettings)⟩

/-- A document that cannot be loaded ends a run with a line that shows why, if that is accounted
    for. -/
theorem run_of_load_error (hsettings : Session.settings packages find i "" = .ok config "")
    {error : LoadError}
    (hload : Document.load packages.readers find (PathName.normalize i.path) config.tagField
      (config.skipFields.map Value.str) = .error error)
    (hreported : Session.isReported error = true)
    (hliteral : packages.terminal.Literal error.message.toList)
    (hlast : error.message.toList.getLast? ≠ some '\\') :
    ∃ lines, Wrap.Shows packages.terminal.width
        ("Error loading tree: " ++ error.message).toList lines ∧
      run packages find words = ⟨failureStatus, Terminal.ofLines lines, none⟩ := by
  have hwhat : "Error loading tree" ++ ": " = "Error loading tree: " := by decide +kernel
  obtain ⟨lines, hshows, hfail⟩ := Session.fail_of_literal (α := Document) hdocumented
    "Error loading tree" (by decide) (by decide) (by decide) hliteral hlast ""
  rw [String.empty_append] at hfail
  rw [hwhat] at hshows
  have hdocument := (Session.document_of_load_error hload hreported).trans hfail
  exact ⟨lines, hshows, h.run_of_status (h.invoke_of_document_error hsettings hdocument)⟩

section Loaded

variable (hsettings : Session.settings packages find i "" = .ok config "")
  (hload : Document.load packages.readers find (PathName.normalize i.path) config.tagField
    (config.skipFields.map Value.str) = .ok d)
  {kinds : List String} (hkinds : d.adapter.kindsAt (d.adapter.stops d.root) = kinds.map some)

include hsettings hload

include hkinds in
/-- At the quiet level the kinds of a document, if there are no blanks and emoji in them, are
    listed in full if and only if there is no markup in them. -/
theorem run_kinds_iff (hcommand : i.command = .kinds) (hquiet : config.verbosity = .quiet)
    (hplain : ∀ kind ∈ kinds, packages.terminal.Plain kind.toList) :
    (∃ lines, Terminal.Listed packages.terminal.width (kinds.map String.toList) lines ∧
        run packages find words = ⟨0, Terminal.ofLines lines, none⟩) ↔
      ∀ kind ∈ kinds, Markup.Unmarked kind.toList := by
  obtain ⟨hnode, -⟩ := Document.of_load_eq_ok hload
  have hdocument : Session.document packages find i config "" = .ok d "" := by
    rw [Session.document_of_load_ok hload, hquiet]
    rfl
  have hinvoke : Session.invoke packages find i "" =
      kinds.forM (Session.print packages.terminal) "" := by
    rw [(h.invoke_of_document_ok hsettings hdocument).1 hcommand, hquiet]
    exact Session.kinds_quiet hnode hkinds
  rw [← Session.exists_listed_iff hdocumented hplain, ← hinvoke]
  constructor
  · rintro ⟨lines, hlisted, hrun⟩
    refine ⟨lines, hlisted, ?_⟩
    -- The run can only have ended well if all kinds have been printed.
    rcases Session.forM_print_cases kinds "" with ⟨outs, houts⟩ | ⟨cause, printed, hcrash⟩
    · have hprint := hinvoke.trans (Session.forM_print_of_marked houts)
      rw [h.run_of_ok hprint] at hrun
      rw [hprint, (Outcome.mk.inj hrun).2.1]
    · rw [h.run_of_crash (hinvoke.trans hcrash)] at hrun
      cases (Outcome.mk.inj hrun).1
  · rintro ⟨lines, hlisted, hprint⟩
    exact ⟨lines, hlisted, h.run_of_ok hprint⟩

include hkinds in
/-- The kinds of a document, if they are literal, are shown in the table of their counts, unless a
    count is too long: then the report ends the run, and there is no table. -/
theorem run_stats (hreaders : packages.readers.Lawful) (hcommand : i.command = .stats)
    (hformat : format = .console) :
    (16 ≤ packages.terminal.width →
      (∀ kind ∈ kinds, Numeral.fits (kinds.count kind) = true) →
      (∀ kind ∈ kinds, packages.terminal.Literal kind.toList) →
      ∃ log table last, ∃ depth : Int, run packages find words =
          ⟨0, packages.terminal.literals log ++ Terminal.ofLines table ++ Terminal.ofLines last,
            none⟩ ∧
        (∀ kind ∈ kinds, Table.Holds table kind.toList) ∧
        Wrap.Shows packages.terminal.width ("Max depth: " ++ toString depth).toList last) ∧
    ((∃ kind ∈ kinds, Numeral.fits (kinds.count kind) = false) →
      ∃ log, run packages find words =
        ⟨1, packages.terminal.literals log, some (.report (.integer {}))⟩) := by
  -- The run is that of the command on the loaded document, whatever the counts are.
  obtain ⟨hnode, -⟩ := Document.of_load_eq_ok hload
  have hseparate := Document.separateBelow_of_load hreaders hload
  have hdocument : Session.document packages find i config "" = .ok d _ :=
    Session.document_of_load_ok hload
  have hinvoke := (h.invoke_of_document_ok hsettings hdocument).2.1 hcommand
  rw [hformat, String.empty_append] at hinvoke
  constructor
  · intro hwidth hfits hliteral
    obtain ⟨log, table, last, depth, hstats, hholds, hlast⟩ := Session.exists_stats_eq hnode
      hseparate hkinds config.verbosity hdocumented hwidth hfits hliteral
    rw [hstats, ← Terminal.literals_append] at hinvoke
    exact ⟨_, table, last, depth, h.run_of_ok hinvoke, hholds, hlast⟩
  · intro hlong
    obtain ⟨log, hstats⟩ := Session.exists_stats_crash hnode hseparate hkinds config.verbosity hlong
    rw [hstats, ← Terminal.literals_append] at hinvoke
    exact ⟨_, h.run_of_crash hinvoke⟩

/-- If the scopes of a document can be collected, their labels are shown, if they are literal. -/
theorem run_scopes (hcommand : i.command = .scopes) {scope : Option Nat}
    (hwalk : (traverse d.root collectScopes (some 0) (#[{}] : ScopeStore) d.adapter).outcome =
      .ok scope) {tree : ScopeTree}
    (htree : ScopeStore.tree (traverse d.root collectScopes (some 0) (#[{}] : ScopeStore)
      d.adapter).own (scope.getD 0) = tree)
    (hliteral : ∀ entry ∈ tree.levels 0, entry.2.isEmpty = false →
      packages.terminal.Literal (Report.label d.adapter entry.2)) :
    ∃ log blocks, run packages find words =
        ⟨0, packages.terminal.literals log ++ Terminal.ofLines blocks.flatten, none⟩ ∧
      List.Forall₂ (fun entry block => Outline.Shows packages.terminal.width
        (entry.1, Report.label d.adapter entry.2) block) (tree.levels 0) blocks := by
  have hdocument : Session.document packages find i config "" = .ok d _ :=
    Session.document_of_load_ok hload
  have hinvoke := (h.invoke_of_document_ok hsettings hdocument).2.2 hcommand
  obtain ⟨log, blocks, hscopes, hshows⟩ := Session.exists_scopes_eq hdocumented hwalk htree hliteral
    config.verbosity
  rw [hscopes, String.empty_append, ← Terminal.literals_append] at hinvoke
  exact ⟨_, blocks, h.run_of_ok hinvoke, hshows⟩

end Loaded

end Started

/-- What a run prints of its document and of what went wrong comes out as it is unless it is taken
    for markup or for an emoji, on a terminal that does what is documented: the message of an error
    that is accounted for, at the status for failures; the kinds in pre-order, listed in full just
    if none of them holds any markup; the kinds in the table of their counts, which is there unless
    a count is too long; the kinds of what is declared in the labels of scopes. -/
theorem run_verbatim {packages : Packages} (hreaders : packages.readers.Lawful)
    (hdocumented : packages.terminal.Documented) {find : String → Option FileEntry}
    {words : List String} {i : Invocation} {format : Session.OutputFormat}
    (h : Started packages find words i format) :
    let terminal := packages.terminal
    (∀ path error, i.config = some path →
      Config.load packages.readers find (PathName.normalize path) = .error error →
      terminal.Literal error.message.toList → error.message.toList.getLast? ≠ some '\\' →
      ∃ lines, Wrap.Shows terminal.width ("Error loading config: " ++ error.message).toList lines ∧
        run packages find words = ⟨1, Terminal.ofLines lines, none⟩) ∧
    ∀ config, Session.settings packages find i "" = .ok config "" →
      let loading := Document.load packages.readers find (PathName.normalize i.path)
        config.tagField (config.skipFields.map Value.str)
      (∀ error, loading = .error error → Session.isReported error = true →
        terminal.Literal error.message.toList → error.message.toList.getLast? ≠ some '\\' →
        ∃ lines, Wrap.Shows terminal.width ("Error loading tree: " ++ error.message).toList lines ∧
          run packages find words = ⟨1, Terminal.ofLines lines, none⟩) ∧
      ∀ d, loading = .ok d → ∃ kinds : List String,
        (d.adapter.stops d.root).map (fun stop => d.adapter.kindOf stop.node) = kinds.map some ∧
        (i.command = .kinds → config.verbosity = .quiet →
          (∀ kind ∈ kinds, terminal.Plain kind.toList) →
          ((∃ lines, Terminal.Listed terminal.width (kinds.map String.toList) lines ∧
              run packages find words = ⟨0, Terminal.ofLines lines, none⟩) ↔
            ∀ kind ∈ kinds, Markup.Unmarked kind.toList)) ∧
        (i.command = .stats → format = .console →
          (16 ≤ terminal.width → (∀ kind ∈ kinds, Numeral.fits (kinds.count kind) = true) →
            (∀ kind ∈ kinds, terminal.Literal kind.toList) →
            ∃ log table last, ∃ depth : Int, run packages find words =
                ⟨0, terminal.literals log ++ Terminal.ofLines table ++ Terminal.ofLines last,
                  none⟩ ∧
              (∀ kind ∈ kinds, Table.Holds table kind.toList) ∧
              Wrap.Shows terminal.width ("Max depth: " ++ toString depth).toList last) ∧
          ((∃ kind ∈ kinds, Numeral.fits (kinds.count kind) = false) →
            ∃ log, run packages find words =
              ⟨1, terminal.literals log, some (.report (.integer {}))⟩)) ∧
        (i.command = .scopes →
          let walk := traverse d.root collectScopes (some 0) (#[{}] : ScopeStore) d.adapter
          ∀ scope, walk.outcome = .ok scope →
            let levels := (ScopeStore.tree walk.own (scope.getD 0)).levels 0
            let label := Report.label d.adapter
            (∀ entry ∈ levels, entry.2.isEmpty = false → terminal.Literal (label entry.2)) →
            (∃ log blocks, run packages find words =
                ⟨0, terminal.literals log ++ Terminal.ofLines blocks.flatten, none⟩ ∧
              List.Forall₂ (fun entry block => Outline.Shows terminal.width
                (entry.1, label entry.2) block) levels blocks) ∧
            ∀ entry ∈ levels, ∀ value ∈ entry.2, ∀ kind, d.adapter.kindOf value = some kind →
              kind.toList <:+: label entry.2) := by
  intro terminal
  refine ⟨fun path error hconfig hload => h.run_of_config_error hdocumented hconfig hload, ?_⟩
  intro config hsettings loading
  refine ⟨fun error hload => h.run_of_load_error hdocumented hsettings hload, ?_⟩
  -- With a document, what is left depends on the command, and each has a lemma of its own.
  intro d hload
  obtain ⟨hnode, -⟩ := Document.of_load_eq_ok hload
  obtain ⟨kinds, hkinds⟩ := Adapter.exists_kindsAt_eq hnode
  refine ⟨kinds, hkinds, h.run_kinds_iff hdocumented hsettings hload hkinds,
    h.run_stats hdocumented hsettings hload hkinds hreaders, ?_⟩
  intro hcommand walk scope hwalk levels label hliteral
  exact ⟨h.run_scopes hdocumented hsettings hload hcommand hwalk rfl hliteral,
    fun entry _ value hvalue kind hkind => Report.infix_label hvalue hkind⟩

/-- The console knows no emoji. -/
theorem emojiFree_console (width : Nat) (text : List Char) :
    (Terminal.console width).EmojiFree text :=
  fun _ _ _ _ => rfl

/-- The run that lists the document with three nodes shows its three kinds; the run on a file
    whose name says nothing of a format shows why there is no document. -/
theorem run_verbatim_nestedFile :
    let packages := Packages.standard 80
    let listing : Invocation := { command := .kinds, path := "t.json" }
    let missing : Invocation := { command := .stats, path := "t.txt" }
    packages.readers.Lawful ∧ packages.terminal.Documented ∧
      Started packages nestedFile ["kinds", "t.json"] listing .console ∧
      (∃ lines, Terminal.Listed 80 [['A'], ['B'], ['A']] lines ∧
        run packages nestedFile ["kinds", "t.json"] = ⟨0, Terminal.ofLines lines, none⟩) ∧
      Started packages nestedFile ["stats", "t.txt"] missing .console ∧
      ∃ lines, Wrap.Shows 80
          ("Error loading tree: " ++ "Unsupported tree format: .txt").toList lines ∧
        run packages nestedFile ["stats", "t.txt"] = ⟨1, Terminal.ofLines lines, none⟩ := by
  intro packages listing missing
  have hreaders : packages.readers.Lawful := Readers.lawful_standard
  have hdocumented : packages.terminal.Documented := Terminal.documented_console (by decide)
  have hlisting : Started packages nestedFile ["kinds", "t.json"] listing .console :=
    ⟨rfl, rfl, rfl⟩
  have hmissing : Started packages nestedFile ["stats", "t.txt"] missing .console :=
    ⟨rfl, rfl, rfl⟩
  refine ⟨hreaders, hdocumented, hlisting, ?_, hmissing, ?_⟩
  · -- The document is computed once and is then given to the theorem.
    have hloaded : (Document.load .standard nestedFile (PathName.normalize "t.json")).toOption.map
        (fun d => (d.adapter.stops d.root).map fun stop => d.adapter.kindOf stop.node) =
        some [some "A", some "B", some "A"] := by
      decide +kernel
    cases hload : Document.load .standard nestedFile (PathName.normalize "t.json") with
    | error error =>
      rw [hload] at hloaded
      cases hloaded
    | ok d =>
      rw [hload] at hloaded
      obtain ⟨kinds, hkinds, hkindsrun, -⟩ :=
        ((run_verbatim hreaders hdocumented hlisting).2 {} rfl).2 d hload
      have hnames : kinds = ["A", "B", "A"] := by
        have hall := hkinds.symm.trans (Option.some.inj hloaded)
        exact List.map_injective_iff.mpr (Option.some_injective String) hall
      subst hnames
      have hplain : ∀ kind ∈ ["A", "B", "A"], packages.terminal.Plain kind.toList := by
        intro kind hkind
        refine ⟨?_, ?_, emojiFree_console 80 _⟩
        · revert kind
          decide
        · revert kind
          decide
      refine (hkindsrun rfl rfl hplain).mpr fun kind hkind => ?_
      refine Markup.unmarked_of_not_mem ?_
      revert kind
      decide
  · have hload : Document.load .standard nestedFile (PathName.normalize "t.txt") =
        .error (.unknownFormat ".txt") := by
      have hfailed : (Document.load .standard nestedFile (PathName.normalize "t.txt")).map
          (fun _ => ()) = .error (.unknownFormat ".txt") := by
        decide +kernel
      exact eq_error_of_map hfailed
    have hmessage : (LoadError.unknownFormat ".txt").message = "Unsupported tree format: .txt" := by
      decide +kernel
    have hrun := ((run_verbatim hreaders hdocumented hmissing).2 {} rfl).1 _ hload rfl
    rw [hmessage] at hrun
    exact hrun ⟨by decide, Markup.unmarked_of_not_mem (by decide), emojiFree_console 80 _⟩
      (by decide)

/-- A document with one node whose kind looks like a type with a parameter. -/
def bracketedText : String :=
  "\x7b\"type\": \"List[int]\"\x7d"

/-- That document alone, under every name. -/
def bracketedFile : String → Option FileEntry := fun _ =>
  some (.file (bracketedText.toList.map fun c => UInt8.ofNat c.toNat))

/-- The parameter is taken for a tag and does not come out. -/
theorem not_listed_bracketedFile :
    let outcome := run (.standard 80) bracketedFile ["kinds", "t.json"]
    (Document.load .standard bracketedFile "t.json").toOption.map (fun d =>
      (d.adapter.stops d.root).map fun stop => d.adapter.kindOf stop.node) =
        some [some "List[int]"] ∧
      outcome.status = 0 ∧ outcome.printed = "List\n" ∧
      ¬∃ lines, Terminal.Listed 80 ["List[int]".toList] lines ∧
        outcome.printed = Terminal.ofLines lines := by
  intro outcome
  have hprinted : outcome.printed = "List\n" := by
    decide +kernel
  refine ⟨by decide +kernel, by decide +kernel, hprinted, ?_⟩
  rintro ⟨lines, hlisted, hlines⟩
  -- Whatever is listed in full has the bracket in it, and what is printed has none.
  have hchars := hlisted.filter_eq (by decide)
  rw [← hlines, hprinted] at hchars
  revert hchars
  decide

end Program

end TreeWalk
