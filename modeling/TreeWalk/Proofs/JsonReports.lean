import TreeWalk.Proofs.Consoles
import TreeWalk.Proofs.GatheredLines
import TreeWalk.Proofs.JsonText
import TreeWalk.Proofs.Statuses
import TreeWalk.Proofs.Summaries

/-! # Summaries in JSON

The summary of a document is printed in JSON whatever is logged meanwhile, and the lines of the
log come first on the same output.  The JSON text on its own says all there is to the summary and
does not depend on the verbosity, but only at the quiet level is it all that is printed.

## Key results

* `Summary.read_jsonLines` reads a summary back from its JSON text.
* `Program.Session.console_summaryLog_inj` tells the verbosity from what is logged.
* `Program.run_json` describes the runs that print a summary in JSON.
-/

namespace TreeWalk

/-! ## The document -/

namespace Summary

variable {s : Summary}

/-- The value of texts in a list are these texts. -/
theorem valueAll_map_text (texts : List String) :
    Json.Term.valueAll (texts.map .text) = texts.map .str := by
  induction texts with
  | nil => rfl
  | cons text rest ih => exact congrArg (Value.str text :: ·) ih

/-- A summary in JSON is an object of its four parts. -/
theorem value_toJson (s : Summary) :
    s.toJson.value = .dict
      [(.str "source", .str s.source), (.str "kinds", .list (s.kinds.map .str)),
       (.str "counts", .dict (s.counts.map fun entry => (.str entry.1, .int entry.2))),
       (.str "max_depth", .int s.maxDepth)] := by
  unfold toJson
  simp only [Json.Term.value, Json.Term.valueFields, valueAll_map_text,
    Json.Term.valueFields_eq_map, List.map_map]
  rfl

/-- Texts in a list are read back under any limit. -/
theorem readableAll_map_text (limit : Option Nat) (texts : List String) :
    Json.Term.ReadableAll limit (texts.map .text) := by
  induction texts with
  | nil => trivial
  | cons text rest ih => exact ⟨trivial, ih⟩

/-- There is no text that is too long to be written. -/
theorem fitsAll_map_text (texts : List String) :
    Json.Term.fitsAll (texts.map .text) = true := by
  induction texts with
  | nil => rfl
  | cons text rest ih => exact ih

/-- The integers that are written are those that can be read back. -/
theorem within_of_fits {n : Int} (h : Numeral.fits n = true) :
    Numeral.Within (some Numeral.maxDigits) n.natAbs := by
  rintro most hmost
  obtain rfl := Option.some.inj hmost
  exact of_decide_eq_true h

/-- Counts that can be written are read back. -/
theorem readableFields_counts {counts : List (String × Int)}
    (h : ∀ entry ∈ counts, Numeral.fits entry.2 = true) :
    Json.Term.ReadableFields (some Numeral.maxDigits)
      (counts.map fun entry => (entry.1, .number entry.2)) := by
  induction counts with
  | nil => trivial
  | cons entry rest ih =>
    rw [List.forall_mem_cons] at h
    exact ⟨within_of_fits h.1, ih h.2⟩

/-- Counts can be written if none of them has too many digits. -/
theorem fitsFields_counts_iff {counts : List (String × Int)} :
    Json.Term.fitsFields (counts.map fun entry => (entry.1, .number entry.2)) = true ↔
      ∀ entry ∈ counts, Numeral.fits entry.2 = true := by
  induction counts with
  | nil => exact iff_of_true rfl fun entry hentry => absurd hentry List.not_mem_nil
  | cons entry rest ih =>
    rw [List.forall_mem_cons, ← ih, List.map_cons, Json.Term.fitsFields, Bool.and_eq_true]
    rfl

/-- A summary is written unless a number in it has too many digits. -/
theorem fits_toJson_iff : s.toJson.fits = true ↔
    (∀ entry ∈ s.counts, Numeral.fits entry.2 = true) ∧ Numeral.fits s.maxDepth = true := by
  simp [toJson, Json.Term.fits, Json.Term.fitsFields, fitsAll_map_text, fitsFields_counts_iff]

/-- The summary of a tree is written unless the number of its nodes has too many digits: all other
    numbers are smaller. -/
theorem Agrees.fits {a : Adapter} {root : Value} (h : s.Agrees a root)
    (hlength : s.kinds.length < 10 ^ Numeral.maxDigits) : s.toJson.fits = true := by
  -- Neither a count nor the depth is greater than the number of nodes.
  have hfits : ∀ n : Nat, n ≤ s.kinds.length → Numeral.fits n = true := by
    intro n hn
    have hdigits := (Nat.length_toDigits_le_iff (n := n) (b := 10) (k := Numeral.maxDigits)
      (by decide) (by decide)).mpr (by omega)
    exact decide_eq_true hdigits
  refine fits_toJson_iff.mpr ⟨fun entry hentry => ?_, ?_⟩
  · rw [h.count entry hentry]
    exact hfits _ List.count_le_length
  · have hpos := h.one_le_maxDepth
    have hle := h.maxDepth_le
    obtain ⟨n, hn⟩ := Int.eq_ofNat_of_zero_le (by omega : 0 ≤ s.maxDepth)
    rw [hn]
    exact hfits n (by omega)

/-- A summary is written if its integers can be. -/
theorem jsonText_eq_ok_iff {text : String} : s.jsonText = .ok text ↔
    s.toJson.fits = true ∧ text = String.ofList (s.toJson.chars 0) := by
  unfold jsonText Json.Term.write
  split
  · next hfits => simp [hfits, eq_comm]
  · next hfits => simp [hfits]

/-- What is printed of a summary is its text and the end of the line. -/
theorem jsonLines_eq_ok_iff {lines : String} :
    s.jsonLines = .ok lines ↔ ∃ text, s.jsonText = .ok text ∧ lines = text ++ "\n" := by
  unfold jsonLines
  cases s.jsonText with
  | error error => simp [bind, Except.bind]
  | ok text => simp [bind, Except.bind, pure, Except.pure, eq_comm]

/-- A summary is read back from its JSON text, with blanks behind it or without, if each kind is
    counted once. -/
theorem read_jsonText {text : String} (hkinds : (s.counts.map Prod.fst).Nodup)
    (htext : s.jsonText = .ok text) {blanks : List Char}
    (hblanks : ∀ c ∈ blanks, Json.isBlank c = true) :
    Json.read (text.toList ++ blanks) = .ok s.toJson.value := by
  obtain ⟨hfits, rfl⟩ := jsonText_eq_ok_iff.mp htext
  obtain ⟨hcounts, hdepth⟩ := fits_toJson_iff.mp hfits
  -- What has been written is read back when no key occurs twice, neither among the kinds nor among
  -- the four names.
  have hnames : ((s.counts.map fun entry => (entry.1, Json.Term.number entry.2)).map
      Prod.fst).Nodup := by
    rw [List.map_map]
    exact hkinds
  have hparts : ["source", "kinds", "counts", "max_depth"].Nodup := by decide
  have hreadable : s.toJson.Readable (some Numeral.maxDigits) :=
    ⟨hparts, trivial, readableAll_map_text _ s.kinds, ⟨hnames, readableFields_counts hcounts⟩,
      within_of_fits hdepth, trivial⟩
  rw [String.toList_ofList]
  exact Json.Term.read_chars hreadable hblanks

/-- A summary is read back from its JSON text, the line end included. -/
theorem read_jsonLines {lines : String} (hkinds : (s.counts.map Prod.fst).Nodup)
    (hlines : s.jsonLines = .ok lines) : Json.read lines.toList = .ok s.toJson.value := by
  have hblank : ∀ c ∈ ['\n'], Json.isBlank c = true := by simp [Json.isBlank]
  obtain ⟨text, htext, rfl⟩ := jsonLines_eq_ok_iff.mp hlines
  rw [String.toList_append]
  exact read_jsonText hkinds htext hblank

end Summary

/-! ## The log -/

namespace Program

namespace Session

/-- What is logged when a document is loaded and summarised. -/
def summaryLog (d : Document) (verbosity : Verbosity) : List String :=
  (VerbositySetting.level verbosity).lines .debug ("Loaded " ++ d.path ++ " as " ++ d.format.name) ++
    (Summary.ofDocument d (some (.level verbosity))).2

/-- What is logged before the nodes of a document are listed. -/
def walking (d : Document) : String :=
  "Walking " ++ d.path ++ " (" ++ d.format.name ++ ")"

/-- What is logged after the walks of a summary. -/
def visited (s : Summary) : String :=
  "Visited " ++ toString s.kinds.length ++ " nodes, max depth " ++ toString s.maxDepth

variable {d : Document}

section

variable (hnode : d.adapter.isNode d.root = true) (hseparate : d.adapter.SeparateBelow d.root)

include hnode

/-- Below the verbose level a walk that lists kinds is not logged. -/
theorem lines_listKinds {v : VerbositySetting} (hv : v.isVerbose = false) :
    (listKinds d.root (.list []) d.adapter (some v)).own.lines = [] := by
  have hadapter : (some d.adapter).getD (.default d.root) = d.adapter := rfl
  exact lines_traverseLogged_of_ok hv (listKinds_eq hadapter hnode [] (some v)).1

include hseparate

/-- The walk that lists kinds is logged between two messages that do not depend on the
    verbosity. -/
theorem lines_ofDocument (v : VerbositySetting) :
    (Summary.ofDocument d (some v)).2 = v.lines .info (walking d) ++
      (listKinds d.root (.list []) d.adapter (some v)).own.lines ++
        v.lines .info (visited (Summary.ofDocument d).1) := by
  have hadapter : (some d.adapter).getD (.default d.root) = d.adapter := rfl
  -- All kinds are texts, since the document was loaded, and so are the items of the listing.
  obtain ⟨kinds, hkinds⟩ := Adapter.exists_kindsAt_eq hnode
  have hlisting := (listKinds_eq hadapter hnode [] (some v)).2
  have hdepth := traverse_gathers (maxDepth_gathers (σ := Unit) (ε := Empty)) hadapter hnode
    hseparate none ()
  have htexts : ([] ++ (kinds.map some).map kindItem).filterMap Value.text? = kinds := by
    rw [List.nil_append, List.map_map, List.filterMap_map]
    exact List.filterMap_some
  rw [hkinds] at hlisting
  rw [ofDocument_eq d hnode hseparate hkinds none]
  unfold Summary.ofDocument
  simp only [hlisting, htexts, hdepth]
  rfl

/-- The summary of a document does not depend on the verbosity. -/
theorem summary_ofDocument (v : VerbositySetting) :
    (Summary.ofDocument d (some v)).1 = (Summary.ofDocument d).1 := by
  obtain ⟨kinds, hkinds⟩ := Adapter.exists_kindsAt_eq hnode
  rw [ofDocument_eq d hnode hseparate hkinds, ofDocument_eq d hnode hseparate hkinds]

/-- At the quiet level nothing is logged. -/
theorem summaryLog_quiet : summaryLog d .quiet = [] := by
  unfold summaryLog
  rw [lines_ofDocument hnode hseparate, lines_listKinds hnode rfl]
  rfl

/-- At the normal level the document and its size are logged. -/
theorem summaryLog_normal :
    summaryLog d .normal =
      ["[info] " ++ walking d, "[info] " ++ visited (Summary.ofDocument d).1] := by
  unfold summaryLog
  rw [lines_ofDocument hnode hseparate, lines_listKinds hnode rfl]
  rfl

/-- At the verbose level everything is logged that is logged at the normal level. -/
theorem summaryLog_verbose :
    summaryLog d .verbose =
      ["[verbose] " ++ ("Loaded " ++ d.path ++ " as " ++ d.format.name), "[info] " ++ walking d] ++
        (listKinds d.root (.list []) d.adapter (some (.level .verbose))).own.lines ++
          ["[info] " ++ visited (Summary.ofDocument d).1] := by
  unfold summaryLog
  rw [lines_ofDocument hnode hseparate]
  rfl

end

/-- The log as it is printed. -/
def printedLog (terminal : Terminal) (d : Document) (verbosity : Verbosity) : String :=
  terminal.literals (summaryLog d verbosity)

section

variable {terminal : Terminal} (hdocumented : terminal.Documented)

include hdocumented

/-- A line that is printed is longer than nothing. -/
theorem length_literal_pos (text : String) : 0 < (terminal.literal text).length := by
  obtain ⟨chars, hchars⟩ := hdocumented.literal_ends text
  rw [hchars, String.length_ofList, List.length_append, List.length_singleton]
  exact Nat.succ_pos _

variable (hnode : d.adapter.isNode d.root = true) (hseparate : d.adapter.SeparateBelow d.root)

include hnode hseparate

/-- The more is to be logged, the longer is the log. -/
theorem length_printedLog :
    (printedLog terminal d .quiet).length < (printedLog terminal d .normal).length ∧
      (printedLog terminal d .normal).length < (printedLog terminal d .verbose).length := by
  unfold printedLog
  rw [summaryLog_quiet hnode hseparate, summaryLog_normal hnode hseparate,
    summaryLog_verbose hnode hseparate]
  -- The lines of the normal level are the second and the last one of the verbose level.
  generalize (listKinds d.root (.list []) d.adapter (some (.level .verbose))).own.lines = listed
  generalize "[info] " ++ walking d = first
  generalize "[info] " ++ visited (Summary.ofDocument d).1 = last
  generalize "[verbose] " ++ ("Loaded " ++ d.path ++ " as " ++ d.format.name) = loaded
  have hfirst := length_literal_pos hdocumented first
  have hloaded := length_literal_pos hdocumented loaded
  simp only [Terminal.literals, List.map_append, List.map_cons, List.map_nil, String.join_append,
    String.join_cons, String.join_nil, String.length_append, String.length_empty]
  omega

/-- The log tells the verbosity. -/
theorem printedLog_inj (v v' : Verbosity) :
    printedLog terminal d v = printedLog terminal d v' ↔ v = v' := by
  obtain ⟨hquiet, hnormal⟩ := length_printedLog hdocumented hnode hseparate
  refine ⟨fun heq => ?_, fun heq => heq ▸ rfl⟩
  have hlengths := congrArg String.length heq
  cases v <;> cases v' <;> first | rfl | (exfalso; omega)

end

/-- The log comes first, then the summary. -/
theorem stats_json {packages : Packages} (hnode : d.adapter.isNode d.root = true)
    (hseparate : d.adapter.SeparateBelow d.root) (verbosity : Verbosity) (printed : String) :
    stats packages d verbosity .json printed =
      report ((Summary.ofDocument d).1.jsonLines.mapError .integer) (printed ++
        packages.terminal.literals (Summary.ofDocument d (some (.level verbosity))).2) := by
  unfold stats
  rw [← summary_ofDocument hnode hseparate (.level verbosity)]
  exact bind_of_ok (forM_printLog _)

end Session

/-! ## Runs -/

/-- A run that summarises a document in JSON. -/
structure Summarises (packages : Packages) (find : String → Option FileEntry)
    (words : List String) (i : Invocation) (config : Config) (d : Document) : Prop where
  started : Started packages find words i .json
  command : i.command = .stats
  settings : Session.settings packages find i "" = .ok config ""
  loaded : Document.load packages.readers find (PathName.normalize i.path) config.tagField
    (config.skipFields.map Value.str) = .ok d

variable {packages : Packages} {find : String → Option FileEntry} {words : List String}
  {i : Invocation} {config : Config} {d : Document}

/-- What is printed is the log, and then the summary whatever the verbosity, if it can be
    written. -/
theorem Summarises.invoke_eq (h : Summarises packages find words i config d)
    (hreaders : packages.readers.Lawful) :
    Session.invoke packages find i "" =
      Session.report ((Summary.ofDocument d).1.jsonLines.mapError .integer)
        (Session.printedLog packages.terminal d config.verbosity) := by
  obtain ⟨hnode, -⟩ := Document.of_load_eq_ok h.loaded
  have hseparate := Document.separateBelow_of_load hreaders h.loaded
  have hinvoke := (h.started.invoke_of_document_ok h.settings
    (Session.document_of_load_ok h.loaded)).2.1 h.command
  rw [Session.stats_json hnode hseparate, String.empty_append,
    ← Terminal.literals_append] at hinvoke
  exact hinvoke

/-- A run that summarises a document prints the log and then the summary. -/
theorem Summarises.run_eq (h : Summarises packages find words i config d)
    (hreaders : packages.readers.Lawful) {lines : String}
    (hlines : (Summary.ofDocument d).1.jsonLines = .ok lines) :
    run packages find words =
      ⟨0, Session.printedLog packages.terminal d config.verbosity ++ lines, none⟩ := by
  have hinvoke := h.invoke_eq hreaders
  rw [hlines] at hinvoke
  exact h.started.run_of_ok hinvoke

/-- A run with status zero has written the summary. -/
theorem Summarises.exists_jsonLines_eq (h : Summarises packages find words i config d)
    (hreaders : packages.readers.Lawful) (hstatus : (run packages find words).status = 0) :
    ∃ lines, (Summary.ofDocument d).1.jsonLines = .ok lines := by
  cases hlines : (Summary.ofDocument d).1.jsonLines with
  | ok lines => exact ⟨lines, rfl⟩
  | error error =>
    have hinvoke := h.invoke_eq hreaders
    rw [hlines] at hinvoke
    rw [h.started.run_of_crash hinvoke] at hstatus
    cases hstatus

/-- A run that is asked for a summary in JSON and has status zero prints the log of its verbosity
    and then the JSON text.  The text depends on the document only, and it is read back as the
    summary that agrees with the tree of the document.  No two verbosities give the same log, so
    that two runs on a document print the same only if they have the same verbosity, and the quiet
    level is the one where the text stands alone. -/
theorem run_json (hreaders : packages.readers.Lawful)
    (hdocumented : packages.terminal.Documented)
    (hwords : packages.commandLine words = .invocation i) (hcommand : i.command = .stats)
    (houtput : i.output.map String.toLower = some "json")
    (hstatus : (run packages find words).status = 0) :
    ∃ config d lines, Summarises packages find words i config d ∧
      let s := (Summary.ofDocument d).1
      s.jsonLines = .ok lines ∧
      (run packages find words).printed =
        Session.printedLog packages.terminal d config.verbosity ++ lines ∧
      ((run packages find words).printed = lines ↔ config.verbosity = .quiet) ∧
      (s.source = d.path ∧ s.Agrees d.adapter d.root) ∧
      Json.read lines.toList = .ok (.dict
        [(.str "source", .str s.source), (.str "kinds", .list (s.kinds.map .str)),
         (.str "counts", .dict (s.counts.map fun entry => (.str entry.1, .int entry.2))),
         (.str "max_depth", .int s.maxDepth)]) ∧
      ∀ find' words' i' config', Summarises packages find' words' i' config' d →
        (run packages find' words').status = 0 ∧
        ((run packages find' words').printed = (run packages find words).printed ↔
          config'.verbosity = config.verbosity) := by
  -- A run of status 0 has come all the way to a document and its summary.
  obtain ⟨format, config, d, hstarted, hsettings, hload⟩ := exists_started hwords hstatus
  have hjson : Session.outputFormat i.output "" = .ok .json "" := by
    unfold Session.outputFormat
    rw [houtput]
    rfl
  obtain rfl : .json = format := by
    have hboth := hjson.symm.trans hstarted.output
    cases hboth
    rfl
  have hrun : Summarises packages find words i config d :=
    ⟨hstarted, hcommand, hsettings, hload⟩
  obtain ⟨lines, hlines⟩ := hrun.exists_jsonLines_eq hreaders hstatus
  obtain ⟨hnode, -⟩ := Document.of_load_eq_ok hload
  have hseparate := Document.separateBelow_of_load hreaders hload
  obtain ⟨kinds, hkinds⟩ := Adapter.exists_kindsAt_eq hnode
  have hs := ofDocument_eq d hnode hseparate hkinds none
  have hagrees := agrees_ofDocument hreaders hload none
  -- The printed logs of two levels differ, so what is said of other runs can be said of their
  -- levels.
  have hinj := Session.printedLog_inj hdocumented hnode hseparate
  refine ⟨config, d, lines, hrun, hlines, ?_, ?_, ⟨?_, hagrees⟩, ?_, ?_⟩
  · rw [hrun.run_eq hreaders hlines]
  · have hquiet : Session.printedLog packages.terminal d .quiet = "" := by
      unfold Session.printedLog
      rw [Session.summaryLog_quiet hnode hseparate]
      rfl
    rw [hrun.run_eq hreaders hlines, ← hinj, hquiet]
    exact String.append_eq_right_iff
  · rw [hs]
  · rw [← Summary.value_toJson]
    exact Summary.read_jsonLines hagrees.nodup_counts hlines
  · intro find' words' i' config' hrun'
    rw [hrun.run_eq hreaders hlines, hrun'.run_eq hreaders hlines, ← hinj]
    exact ⟨rfl, String.append_left_inj _⟩

/-- The command line that summarises a document in JSON at a verbosity. -/
def summaryWords (verbosity : Verbosity) : List String :=
  ["stats", "t.json", "--output", "json", "-v", verbosity.name]

/-- What that command line asks for. -/
def summaryInvocation (verbosity : Verbosity) : Invocation where
  command := .stats
  path := "t.json"
  verbosity := some verbosity.name
  output := some "json"

/-- The words of a summary are understood as the invocation. -/
theorem ofWords_summaryWords (v : Verbosity) :
    CommandLine.ofWords (summaryWords v) = .invocation (summaryInvocation v) := by
  cases v <;> rfl

/-- The names of the levels have no capitals. -/
theorem toLower_name (v : Verbosity) : v.name.toLower = v.name := by
  cases v <;> decide +kernel

/-- Without a configuration only the verbosity is set. -/
theorem settings_summaryInvocation (v : Verbosity) :
    Session.settings packages find (summaryInvocation v) "" = .ok { verbosity := v } "" := by
  have hname : Verbosity.ofName? v.name.toLower = some v := by
    rw [toLower_name, Verbosity.ofName?_name]
  have hne : v.name ≠ "" := by cases v <;> decide
  -- There is no file of settings, and the level is named in the invocation.
  unfold Session.settings summaryInvocation
  dsimp only
  split
  · next heq => cases heq
  · next heq => exact absurd (Option.some.inj heq) hne
  · next name _ heq =>
    obtain rfl := Option.some.inj heq
    rw [hname]
    rfl

/-- Such words summarise the document of the file, at each level. -/
theorem summarises_summaryWords (v : Verbosity)
    (hload : Document.load .standard nestedFile "t.json" = .ok d) :
    Summarises (.standard 80) nestedFile (summaryWords v) (summaryInvocation v)
      { verbosity := v } d := by
  have houtput : Session.outputFormat (some "json") "" = .ok .json "" := by
    have hlower : "json".toLower = "json" := by decide +kernel
    unfold Session.outputFormat
    rw [Option.map_some, hlower]
    rfl
  have hpath : PathName.normalize "t.json" = "t.json" := by decide +kernel
  refine ⟨⟨ofWords_summaryWords v, rfl, houtput⟩, rfl, settings_summaryInvocation v, ?_⟩
  show Document.load .standard nestedFile (PathName.normalize "t.json") defaultTagField [] = _
  rw [hpath]
  exact hload

/-- The document with three nodes is loaded, and its summary can be written. -/
theorem exists_load_nestedFile :
    ∃ d lines, Document.load .standard nestedFile "t.json" = .ok d ∧
      (Summary.ofDocument d).1.jsonLines = .ok lines ∧
      Session.walking d = "Walking t.json (json)" ∧
      Session.visited (Summary.ofDocument d).1 = "Visited 3 nodes, max depth 2" := by
  -- What the document says of itself is computed in one go.
  have hloaded : (Document.load .standard nestedFile "t.json").toOption.map (fun d =>
      ((Summary.ofDocument d).1.kinds, Session.walking d,
        Session.visited (Summary.ofDocument d).1)) =
        some (["A", "B", "A"], "Walking t.json (json)", "Visited 3 nodes, max depth 2") := by
    decide +kernel
  cases hload : Document.load .standard nestedFile "t.json" with
  | error error =>
    rw [hload] at hloaded
    cases hloaded
  | ok d =>
    rw [hload] at hloaded
    obtain ⟨hkinds, hlog⟩ := Prod.mk.inj (Option.some.inj hloaded)
    obtain ⟨hwalking, hvisited⟩ := Prod.mk.inj hlog
    have hagrees := agrees_ofDocument Readers.lawful_standard hload none
    have hlength : (Summary.ofDocument d).1.kinds.length < 10 ^ Numeral.maxDigits := by
      rw [hkinds]
      exact Nat.lt_of_lt_of_le (by decide : 3 < 10 ^ 1)
        (Nat.pow_le_pow_right (by decide) (by decide))
    exact ⟨d, _, rfl, Summary.jsonLines_eq_ok_iff.mpr
      ⟨_, Summary.jsonText_eq_ok_iff.mpr ⟨hagrees.fits hlength, rfl⟩, rfl⟩, hwalking, hvisited⟩

/-- The summary of the document with three nodes is printed behind the log of the normal level. -/
theorem run_json_nestedFile :
    let packages := Packages.standard 80
    packages.commandLine (summaryWords .normal) = .invocation (summaryInvocation .normal) ∧
      (summaryInvocation .normal).command = .stats ∧
      (summaryInvocation .normal).output.map String.toLower = some "json" ∧
      (run packages nestedFile (summaryWords .normal)).status = 0 ∧
      ∃ config d lines, Summarises packages nestedFile (summaryWords .normal)
          (summaryInvocation .normal) config d ∧
        (run packages nestedFile (summaryWords .normal)).printed =
          Session.printedLog packages.terminal d config.verbosity ++ lines ∧
        (Json.read lines.toList).isOk = true := by
  intro packages
  have hwords : packages.commandLine (summaryWords .normal) =
      .invocation (summaryInvocation .normal) := ofWords_summaryWords .normal
  have houtput : (summaryInvocation .normal).output.map String.toLower = some "json" := by
    decide +kernel
  -- The document is loaded by computation, and the theorem is then applied to its run.
  obtain ⟨d, lines, hload, hlines, -⟩ := exists_load_nestedFile
  have hstatus : (run packages nestedFile (summaryWords .normal)).status = 0 := by
    rw [(summarises_summaryWords .normal hload).run_eq Readers.lawful_standard hlines]
  obtain ⟨config, d, lines, hrun, -, hprinted, -, -, hread, -⟩ := run_json Readers.lawful_standard
    (Terminal.documented_console (by decide)) hwords rfl houtput hstatus
  exact ⟨hwords, rfl, houtput, hstatus, config, d, lines, hrun, hprinted, by rw [hread]; rfl⟩

/-- What begins like a line of information is no JSON document. -/
theorem isOk_read_information (rest : List Char) :
    (Json.read ('[' :: 'i' :: rest)).isOk = false :=
  rfl

/-- At the quiet level the JSON text stands alone.  At the normal level, where the log comes
    first, something else is printed, and it cannot be read as JSON. -/
theorem printed_ne_nestedFile :
    let quiet := run (.standard 80) nestedFile (summaryWords .quiet)
    let normal := run (.standard 80) nestedFile (summaryWords .normal)
    quiet.status = 0 ∧ normal.status = 0 ∧ normal.printed ≠ quiet.printed ∧
      (Json.read normal.printed.toList).isOk = false := by
  intro quiet normal
  have hdocumented : (Terminal.console 80).Documented := Terminal.documented_console (by decide)
  obtain ⟨d, lines, hload, hlines, hwalking, hvisited⟩ := exists_load_nestedFile
  obtain ⟨hnode, -⟩ := Document.of_load_eq_ok hload
  have hseparate := Document.separateBelow_of_load Readers.lawful_standard hload
  have hquiet : quiet = ⟨0, Session.printedLog (.console 80) d .quiet ++ lines, none⟩ :=
    (summarises_summaryWords .quiet hload).run_eq Readers.lawful_standard hlines
  have hnormal : normal = ⟨0, Session.printedLog (.console 80) d .normal ++ lines, none⟩ :=
    (summarises_summaryWords .normal hload).run_eq Readers.lawful_standard hlines
  -- No document starts with the lines that are logged at the normal level.
  have hlog : (Session.printedLog (.console 80) d .normal).toList.take 2 = ['[', 'i'] := by
    unfold Session.printedLog
    rw [Session.summaryLog_normal hnode hseparate, hwalking, hvisited]
    decide +kernel
  have hne := mt (Session.printedLog_inj hdocumented hnode hseparate .normal .quiet).mp (by decide)
  rw [hquiet, hnormal]
  generalize Session.printedLog (.console 80) d .normal = log at hlog hne
  refine ⟨rfl, rfl, fun heq => hne ((String.append_left_inj _).mp heq), ?_⟩
  have hstart : log.toList = '[' :: 'i' :: log.toList.drop 2 := by
    rw [← List.take_append_drop 2 log.toList, hlog]
    simp
  show (Json.read (log ++ lines).toList).isOk = false
  rw [String.toList_append, hstart]
  exact isOk_read_information _

end Program

end TreeWalk
