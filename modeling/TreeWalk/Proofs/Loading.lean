import Mathlib
import TreeWalk.Proofs.Documents
import TreeWalk.Proofs.EncodedText
import TreeWalk.Proofs.JsonDigits
import TreeWalk.Standard

/-! # What loading a document comes to

A file that is no tree is reported with its path, whether its text is not well formed or its root
is no node.  Two sorts of errors escape this: bytes that are no text, and what a reader raises
besides saying that a text is not well formed.  These are reported as they are, and there are no
others.

## Key results

* `Document.Escapes` are the errors that are reported as they are.
* `Document.load_cases` says what loading a file comes to.
* `Readers.digits_of_raised` says when the standard reader of JSON raises something else.
-/

namespace TreeWalk

/-- The small letters of a text are those of its characters. -/
theorem toLower_eq {s t : String} (h : s.toList.map Char.toLower = t.toList) : s.toLower = t :=
  String.toList_inj.mp (String.toList_map.trans h)

namespace DocumentFormat

variable {s t : String} {format : DocumentFormat}

/-- The suffixes of a format, capitals apart. -/
theorem ofSuffix?_eq_some_iff : ofSuffix? s = some format ↔
    (s.toLower, format) ∈ [(".json", json), (".yaml", yaml), (".yml", yaml), (".py", source)] := by
  unfold ofSuffix?
  simp only [List.mem_cons, List.not_mem_nil, or_false, Prod.mk.injEq]
  -- The suffixes are told apart in the order of the table.
  split
  · rename_i h
    simp [h, eq_comm]
  · rename_i h
    simp [h, eq_comm]
  · rename_i h
    simp [h, eq_comm]
  · rename_i h
    simp [h, eq_comm]
  · rename_i hjson hyaml hyml hpy
    refine iff_of_false (by simp) ?_
    rintro (⟨h, -⟩ | ⟨h, -⟩ | ⟨h, -⟩ | ⟨h, -⟩)
    · exact hjson h
    · exact hyaml h
    · exact hyml h
    · exact hpy h

/-- A suffix in other letters, big or small, is the same suffix. -/
theorem ofSuffix?_eq (hsmall : s.toList.map Char.toLower = t.toList)
    (hmem : (t, format) ∈ [(".json", json), (".yaml", yaml), (".yml", yaml), (".py", source)]) :
    ofSuffix? s = some format := by
  rw [ofSuffix?_eq_some_iff, toLower_eq hsmall]
  exact hmem

end DocumentFormat

namespace Readers

/-- The standard reader of JSON says of a text that it is not well formed, or raises the exception
    for an integer with too many digits, which stand side by side in the text. -/
theorem digits_of_raised {text : List Char} {exception : Raised}
    (h : standard.json text = .error (.raised exception)) :
    ∃ error : NumeralTooLong, exception = error.raised ∧ Numeral.maxDigits < error.digits ∧
      Json.HasDigits error.digits text := by
  have hread : (Json.read text).mapError (Json.Error.readError text) =
      .error (.raised exception) := h
  cases hjson : Json.read text with
  | ok root =>
    rw [hjson] at hread
    cases hread
  | error error =>
    rw [hjson] at hread
    have hraised : Json.Error.readError text error = .raised exception := Except.error.inj hread
    -- Of the three ways in which reading ends without a value, two are reported as faults of the
    -- text.
    cases error with
    | malformed fault left => cases hraised
    | halfPair => cases hraised
    | numeral error =>
      obtain rfl : error.raised = exception := ReadError.raised.inj hraised
      exact ⟨error, rfl, Json.digits_of_read_eq_error hjson⟩

end Readers

namespace Document

variable {readers : Readers} {find : String → Option FileEntry} {path : String}
  {content : List UInt8} {format : DocumentFormat} {text : List Char} {root : Value}
  {e : LoadError}

/-- The errors of the files of a format that are reported as they are. -/
inductive Escapes (readers : Readers) : DocumentFormat → List UInt8 → LoadError → Prop
  | encoding {format : DocumentFormat} {content : List UInt8} {error : Utf8Error}
      (h : Utf8.decode content = .error error) : Escapes readers format content (.encoding error)
  | json {text : List Char} {exception : Raised}
      (h : readers.json (unifyNewlines text) = .error (.raised exception)) :
      Escapes readers .json (Utf8.encode text) (.raised exception)
  | yaml {text : List Char} {exception : Raised}
      (h : readers.yaml (unifyNewlines text) = .error (.raised exception)) :
      Escapes readers .yaml (Utf8.encode text) (.raised exception)
  | source {text : List Char} {exception : Raised}
      (h : readers.source (unifyNewlines text) = .error (.raised exception)) :
      Escapes readers .source (Utf8.encode text) (.raised exception)

/-- The bytes of a file are those of a text or give an error that is reported as it is. -/
theorem exists_escapes_encoding_iff :
    (∃ error, Escapes readers format content (.encoding error)) ↔
      ∀ text, content ≠ Utf8.encode text := by
  constructor
  · rintro ⟨error, h⟩ text hcontent
    cases h with
    | encoding h =>
      rw [Utf8.decode_eq_ok_iff.mpr hcontent] at h
      cases h
  · intro h
    cases hdecode : Utf8.decode content with
    | ok text => exact absurd (Utf8.decode_eq_ok_iff.mp hdecode) (h text)
    | error error => exact ⟨error, .encoding hdecode⟩

/-! ## Texts -/

/-- What a reader says is reported with the path of the file, or is raised as it is. -/
theorem mapError_readError_cases {φ : Type} {read : Except (ReadError φ) Value}
    {reason : φ → String} (h : read.mapError (readError path reason) = .error e) :
    (∃ fault, e = .tree path fault) ∨
      ∃ exception, e = .raised exception ∧ read = .error (.raised exception) := by
  cases read with
  | ok root => cases h
  | error error =>
    obtain rfl := Except.error.inj h
    cases error with
    | malformed fault => exact .inl ⟨_, rfl⟩
    | raised exception => exact .inr ⟨exception, rfl, rfl⟩

/-- A text that spells no value is reported with the path of its file, or its error is one of
    those that are reported as they are. -/
theorem rootOf_eq_error (h : rootOf readers path format (unifyNewlines text) = .error e) :
    (∃ fault, e = .tree path fault) ∨ Escapes readers format (Utf8.encode text) e := by
  -- The three readers differ in what they read, but an exception of any of them goes the same way.
  cases format with
  | json =>
    rcases mapError_readError_cases h with hfault | ⟨exception, rfl, hread⟩
    · exact .inl hfault
    · exact .inr (.json hread)
  | yaml =>
    rcases mapError_readError_cases h with hfault | ⟨exception, rfl, hread⟩
    · exact .inl hfault
    · exact .inr (.yaml hread)
  | source =>
    rcases mapError_readError_cases h with hfault | ⟨exception, rfl, hread⟩
    · exact .inl hfault
    · exact .inr (.source hread)

/-! ## Files -/

/-- The format of a document is told by the suffix of its path. -/
theorem formatOf_eq_ok_iff : formatOf path = .ok format ↔
    DocumentFormat.ofSuffix? (PathName.suffix path) = some format := by
  unfold formatOf
  dsimp only
  cases DocumentFormat.ofSuffix? (PathName.suffix path) with
  | none => simp
  | some format => simp

/-- Each of the four suffixes tells a format. -/
theorem exists_formatOf (h : (PathName.suffix path).toLower ∈ [".json", ".yaml", ".yml", ".py"]) :
    ∃ format, formatOf path = .ok format := by
  simp only [formatOf_eq_ok_iff, DocumentFormat.ofSuffix?_eq_some_iff]
  generalize (PathName.suffix path).toLower = small at h
  simp only [List.mem_cons, List.not_mem_nil, or_false] at h
  rcases h with rfl | rfl | rfl | rfl
  · exact ⟨.json, by simp⟩
  · exact ⟨.yaml, by simp⟩
  · exact ⟨.yaml, by simp⟩
  · exact ⟨.source, by simp⟩

section

variable (hformat : formatOf (PathName.normalize path) = .ok format) (tagField : String)
  (skip : List Value) (adapter : Option Adapter)

include hformat

/-- A file that is no text is refused as it is decoded. -/
theorem load_of_decode_eq_error {error : Utf8Error}
    (hfind : find (PathName.normalize path) = some (.file content))
    (h : Utf8.decode content = .error error) :
    load readers find path tagField skip adapter = .error (.encoding error) := by
  unfold load
  simp only [hfind, hformat, h, Except.mapError, bind, Except.bind]

/-- A file with a text is refused if the text spells no value. -/
theorem load_of_rootOf_eq_error
    (hfind : find (PathName.normalize path) = some (.file (Utf8.encode text)))
    (h : rootOf readers (PathName.normalize path) format (unifyNewlines text) = .error e) :
    load readers find path tagField skip adapter = .error e := by
  unfold load
  simp only [hfind, hformat, Utf8.decode_encode, h, Except.mapError, bind, Except.bind]

/-- A file with the text of a value is a document if the value is a node. -/
theorem load_of_rootOf_eq_ok
    (hfind : find (PathName.normalize path) = some (.file (Utf8.encode text)))
    (h : rootOf readers (PathName.normalize path) format (unifyNewlines text) = .ok root) :
    let chosen := adapter.getD (adapterFor format tagField skip)
    load readers find path tagField skip adapter =
      if chosen.isNode root then .ok ⟨PathName.normalize path, format, root, chosen⟩
      else .error (.tree (PathName.normalize path) .notNode) := by
  unfold load
  simp only [hfind, hformat, Utf8.decode_encode, h, Except.mapError, bind, Except.bind]
  rfl

/-- An error that is reported as it is, is reported. -/
theorem load_of_escapes (hfind : find (PathName.normalize path) = some (.file content))
    (h : Escapes readers format content e) :
    load readers find path tagField skip adapter = .error e := by
  cases h with
  | encoding h => exact load_of_decode_eq_error hformat tagField skip adapter hfind h
  | json h | yaml h | source h =>
    refine load_of_rootOf_eq_error hformat tagField skip adapter hfind ?_
    rw [rootOf, h]
    rfl

end

/-- What loading an existing file of a known format comes to, whatever the readers do.  It is the
    document, seen through the adapter that was given or the one of its format and with a node for
    its root, or an error with the path of the file, unless an error is reported as it is.  Such an
    error is always reported.  It is that of bytes that are no text, or else what the reader of the
    format raises.  With the standard reader of JSON this is the exception for an integer of too
    many digits. -/
theorem load_cases (readers : Readers)
    (hfind : find (PathName.normalize path) = some (.file content))
    (hsuffix : (PathName.suffix (PathName.normalize path)).toLower ∈
      [".json", ".yaml", ".yml", ".py"])
    (tagField : String) (skip : List Value) (adapter : Option Adapter) :
    ∃ format, formatOf (PathName.normalize path) = .ok format ∧
      let name := PathName.normalize path
      let loaded := load readers find path tagField skip adapter
      let chosen := adapter.getD (if format = .source then .source skip else .tagged tagField skip)
      (((∃ root, loaded = .ok ⟨name, format, root, chosen⟩ ∧ chosen.isNode root = true) ∨
          ∃ fault, loaded = .error (.tree name fault)) ↔
        ∀ e, ¬ Escapes readers format content e) ∧
      (∀ e, Escapes readers format content e → loaded = .error e) ∧
      ((∃ error, Escapes readers format content (.encoding error)) ↔
        ∀ text, content ≠ Utf8.encode text) ∧
      ∀ text, content = Utf8.encode text → format = .json →
        readers.json = Readers.standard.json → ∀ e, Escapes readers format content e →
          ∃ error : NumeralTooLong, e = .raised error.raised ∧ Numeral.maxDigits < error.digits ∧
            Json.HasDigits error.digits (unifyNewlines text) := by
  obtain ⟨format, hformat⟩ := exists_formatOf hsuffix
  refine ⟨format, hformat, ?_⟩
  intro name loaded chosen
  have hchosen : chosen = adapter.getD (adapterFor format tagField skip) := by
    cases format <;> rfl
  have hescapes : ∀ e, Escapes readers format content e → loaded = .error e :=
    fun e h => load_of_escapes hformat tagField skip adapter hfind h
  refine ⟨⟨?_, ?_⟩, hescapes, exists_escapes_encoding_iff, ?_⟩
  · -- What is reported as it is comes neither from a document nor with the path.
    rintro (⟨root, hok, -⟩ | ⟨fault, herror⟩) e h
    · rw [hescapes e h] at hok
      cases hok
    · rw [hescapes e h] at herror
      obtain rfl := Except.error.inj herror
      cases h
  · -- Only the bytes of a text are left, and only errors of it that are reported with the path.
    intro hnone
    cases hdecode : Utf8.decode content with
    | error error => exact absurd (.encoding hdecode) (hnone _)
    | ok text =>
      obtain rfl := Utf8.decode_eq_ok_iff.mp hdecode
      cases hroot : rootOf readers name format (unifyNewlines text) with
      | error e =>
        rcases rootOf_eq_error hroot with ⟨fault, rfl⟩ | h
        · exact .inr ⟨fault, load_of_rootOf_eq_error hformat tagField skip adapter hfind hroot⟩
        · exact absurd h (hnone e)
      | ok root =>
        have hload := load_of_rootOf_eq_ok hformat tagField skip adapter hfind hroot
        rw [← hchosen] at hload
        cases hnode : chosen.isNode root with
        | true => exact .inl ⟨root, hload.trans (if_pos hnode), hnode⟩
        | false => exact .inr ⟨.notNode, hload.trans (if_neg (by rw [hnode]; decide))⟩
  · -- A text is what its bytes encode, so that only the reader is left to raise.
    rintro text hcontent rfl hjson e h
    cases h with
    | encoding h =>
      rw [Utf8.decode_eq_ok_iff.mpr hcontent] at h
      cases h
    | json h =>
      obtain rfl := Utf8.encode_injective hcontent
      rw [hjson] at h
      obtain ⟨error, rfl, hdigits⟩ := Readers.digits_of_raised h
      exact ⟨error, rfl, hdigits⟩

/-- A small tree as text. -/
def smallText : String :=
  "\x7b\"type\": \"A\"\x7d"

/-- A scalar that is marked as a time and is none, as text. -/
def untimedText : String :=
  "type: !!timestamp x"

/-- A small tree is loaded, since no error of its file is reported as it is; a time that is none
    gives such an error in a YAML file. -/
theorem load_cases_smallText :
    let find : String → Option FileEntry := fun _ => some (.file (Utf8.encode smallText.toList))
    let untimed : String → Option FileEntry :=
      fun _ => some (.file (Utf8.encode untimedText.toList))
    find (PathName.normalize "t.json") = some (.file (Utf8.encode smallText.toList)) ∧
    (PathName.suffix (PathName.normalize "t.json")).toLower ∈ [".json", ".yaml", ".yml", ".py"] ∧
    load .standard find "t.json" =
      .ok ⟨"t.json", .json, .dict [(.str "type", .str "A")], .tagged "type" []⟩ ∧
    (∀ e, ¬ Escapes .standard .json (Utf8.encode smallText.toList) e) ∧
    ∃ exception, exception.className = "AttributeError" ∧
      load .standard untimed "t.yaml" = .error (.raised exception) := by
  intro find untimed
  have hname : PathName.normalize "t.json" = "t.json" := by decide
  have hsmall : (PathName.suffix (PathName.normalize "t.json")).toLower = ".json" := toLower_eq rfl
  have hsmall' : (PathName.suffix (PathName.normalize "t.yaml")).toLower = ".yaml" :=
    toLower_eq rfl
  have hsuffix : (PathName.suffix (PathName.normalize "t.json")).toLower ∈
      [".json", ".yaml", ".yml", ".py"] := by
    rw [hsmall]
    decide
  have hread : Readers.standard.json (unifyNewlines smallText.toList) =
      .ok (.dict [(.str "type", .str "A")]) := by cbv
  have hnode : (Adapter.tagged "type" []).isNode (.dict [(.str "type", .str "A")]) = true := by
    decide
  have hfind : find (PathName.normalize "t.json") =
      some (.file (Utf8.encode smallText.toList)) := rfl
  have huntimed : untimed (PathName.normalize "t.yaml") =
      some (.file (Utf8.encode untimedText.toList)) := rfl
  -- Only what the reader raises is computed, not the whole error.
  have htime : Readers.standard.yaml (unifyNewlines untimedText.toList) =
      .error (.raised ⟨"AttributeError", false, Yaml.Error.notTime.message⟩) := by
    have hfailed : (Readers.standard.yaml (unifyNewlines untimedText.toList)).map (fun _ => ()) =
        .error (.raised ⟨"AttributeError", false, Yaml.Error.notTime.message⟩) := by
      decide +kernel
    exact eq_error_of_map hfailed
  obtain ⟨format, hformat, hiff, -⟩ := load_cases .standard hfind hsuffix defaultTagField [] none
  obtain ⟨format', hformat', -, hescapes, -⟩ := load_cases .standard huntimed
    (by rw [hsmall']; decide) defaultTagField [] none
  obtain rfl : format = .json :=
    Except.ok.inj (hformat.symm.trans
      (formatOf_eq_ok_iff.mpr (DocumentFormat.ofSuffix?_eq_some_iff.mpr (by rw [hsmall]; decide))))
  obtain rfl : format' = .yaml :=
    Except.ok.inj (hformat'.symm.trans
      (formatOf_eq_ok_iff.mpr (DocumentFormat.ofSuffix?_eq_some_iff.mpr (by rw [hsmall']; decide))))
  have hload : load .standard find "t.json" =
      .ok ⟨"t.json", .json, .dict [(.str "type", .str "A")], .tagged "type" []⟩ := by
    have hroot : rootOf .standard (PathName.normalize "t.json") .json
        (unifyNewlines smallText.toList) = .ok (.dict [(.str "type", .str "A")]) := by
      rw [rootOf, hread]
      rfl
    have hload := load_of_rootOf_eq_ok hformat defaultTagField [] none hfind hroot
    rw [hname] at hload
    exact hload.trans (if_pos hnode)
  refine ⟨hfind, hsuffix, hload, hiff.mp (.inl ⟨_, ?_, hnode⟩), _, rfl, hescapes _ (.yaml htime)⟩
  rw [hname]
  exact hload

/-- A byte that begins no character is reported as it is, without the path of the file, whatever
    the readers do. -/
theorem not_reported_ff :
    let find : String → Option FileEntry := fun _ => some (.file [0xff])
    ∀ readers, load readers find "t.json" = .error (.encoding ⟨.invalidStart, 0xff, 0, 1⟩) ∧
      (∀ d, load readers find "t.json" ≠ .ok d) ∧
      ∀ fault, load readers find "t.json" ≠ .error (.tree (PathName.normalize "t.json") fault) := by
  intro find readers
  -- No reader is asked, as the bytes are no text.
  have hformat : formatOf (PathName.normalize "t.json") = .ok .json :=
    formatOf_eq_ok_iff.mpr (DocumentFormat.ofSuffix?_eq (t := ".json") rfl (by decide))
  have hload : load readers find "t.json" = .error (.encoding ⟨.invalidStart, 0xff, 0, 1⟩) :=
    load_of_decode_eq_error hformat defaultTagField [] none rfl rfl
  refine ⟨hload, fun d => ?_, fun fault => ?_⟩
  · rw [hload]
    exact nofun
  · rw [hload]
    exact nofun

end Document

end TreeWalk
