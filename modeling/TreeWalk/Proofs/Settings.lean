import TreeWalk.Config
import TreeWalk.Proofs.Loading

/-! # Settings and the files that hold them

The entries of a mapping are accepted as settings unless one of them has a value that it cannot
have; the first such value is what is complained of.  A list of fields to skip that counts as
false is looked at no further, whatever it is, and stands for none.

The file shows its format in its suffix, as a document does, but here the suffix has to be in
lower case.  With such suffixes two files that hold the same value hold the same settings, except
for values other than mappings that count as false: a YAML file with one of them is as good as an
empty one, and a JSON file is refused.

## Key results

* `Config.ofEntries_eq_ok_iff` and `Config.ofEntries_eq_error_iff` say which entries are accepted.
* `Config.load_settings` says so of the files that hold mappings.
* `Config.load_sameValue` compares two files that hold one value.
-/

namespace TreeWalk

/-! ## The values of settings -/

namespace Setting

/-- The value that stands for a setting that is not given. -/
def default : Setting → Value
  | .verbosity => .str Verbosity.quiet.name
  | .tagField => .str defaultTagField
  | .skipFields => .null

/-- The settings that are looked at before the given one. -/
def earlier : Setting → List Setting
  | .verbosity => []
  | .tagField => [.verbosity]
  | .skipFields => [.verbosity, .tagField]

/-- The values that a setting is meant to have. -/
def Admits : Setting → Value → Prop
  | .verbosity, value => value.plain.toLower ∈ ["quiet", "normal", "verbose"]
  | .tagField, value => ∃ s, s ≠ "" ∧ value = .str s
  | .skipFields, value =>
    value = .null ∨ (∃ s, value = .str s) ∨ ∃ names : List String, value = .list (names.map .str)

/-- Whether a value of a setting is refused.  It is not enough that the setting is not meant to
    have it: as fields to skip anything passes that counts as false. -/
def Refuses (s : Setting) (value : Value) : Prop :=
  ¬ s.Admits value ∧ (s = .skipFields → value.isTrue = true)

/-- What a value of a setting is meant to stand for. -/
def Means (c : Config) : Setting → Value → Prop
  | .verbosity, value => value.plain.toLower = c.verbosity.name
  | .tagField, value => value = .str c.tagField
  | .skipFields, value => value = .null ∧ c.skipFields = [] ∨
    (∃ s, value = .str s ∧ c.skipFields = [s]) ∨ value = .list (c.skipFields.map .str)

/-- What a value of a setting stands for: fields to skip that count as false are none. -/
def Gives (c : Config) (s : Setting) (value : Value) : Prop :=
  (s ≠ .skipFields ∨ value.isTrue = true → s.Means c value) ∧
    (s = .skipFields → value.isTrue = false → c.skipFields = [])

section

variable {c : Config} {s : Setting} {value : Value}

/-- Only among the fields to skip a value passes that the setting is not meant to have. -/
theorem refuses_iff_of_plain
    (h : s = .skipFields → value.isTrue = false → value = .null ∨ value = .list []) :
    s.Refuses value ↔ ¬ s.Admits value := by
  refine ⟨And.left, fun hadmits => ⟨hadmits, ?_⟩⟩
  rintro rfl
  cases htrue : value.isTrue with
  | true => rfl
  | false =>
    rcases h rfl htrue with rfl | rfl
    · exact absurd (.inl rfl) hadmits
    · exact absurd (.inr (.inr ⟨[], rfl⟩)) hadmits

/-- Only among the fields to skip a value stands for something else than it is meant to. -/
theorem Gives.means (hgives : s.Gives c value)
    (h : s = .skipFields → value.isTrue = false → value = .null ∨ value = .list []) :
    s.Means c value := by
  by_cases htrue : s ≠ .skipFields ∨ value.isTrue = true
  · exact hgives.1 htrue
  · simp only [ne_eq, not_or, not_not, Bool.not_eq_true] at htrue
    obtain ⟨rfl, hfalse⟩ := htrue
    have hnone := hgives.2 rfl hfalse
    rcases h rfl hfalse with rfl | rfl
    · exact .inl ⟨rfl, hnone⟩
    · exact .inr (.inr (by rw [hnone]; rfl))

end

/-- No setting refuses its own default. -/
theorem not_refuses_default (s : Setting) : ¬ s.Refuses s.default := by
  rintro ⟨hadmits, -⟩
  refine hadmits ?_
  cases s with
  | verbosity =>
    show "quiet".toLower ∈ ["quiet", "normal", "verbose"]
    rw [toLower_eq (t := "quiet") rfl]
    decide
  | tagField => exact ⟨defaultTagField, by decide, rfl⟩
  | skipFields => exact .inl rfl

end Setting

/-- A level is told by its name. -/
theorem Verbosity.ofName?_eq_some_iff {name : String} {v : Verbosity} :
    ofName? name = some v ↔ name = v.name := by
  constructor
  · intro h
    unfold ofName? at h
    split at h
    case h_4 => cases h
    all_goals
      obtain rfl := Option.some.inj h
      rfl
  · rintro rfl
    exact ofName?_name v

namespace Value

/-- Only a text is the text that it is. -/
theorem text?_eq_some_iff {value : Value} {s : String} : value.text? = some s ↔ value = .str s := by
  cases value <;> simp [text?]

/-- Items all have a text just if they are those texts. -/
theorem mapM_text?_eq_some_iff {items : List Value} {names : List String} :
    items.mapM text? = some names ↔ items = names.map .str := by
  induction items generalizing names with
  | nil => simp [eq_comm]
  | cons item rest ih =>
    simp only [List.mapM_cons, Option.bind_eq_bind, Option.bind_eq_some_iff, Option.pure_def,
      Option.some.injEq, text?_eq_some_iff, ih]
    -- The first item and the others are texts on their own.
    constructor
    · rintro ⟨_, rfl, _, rfl, rfl⟩
      rfl
    · intro h
      obtain ⟨name, others, rfl, rfl, rfl⟩ := List.map_eq_cons_iff.mp h.symm
      exact ⟨name, rfl, others, rfl, rfl⟩

end Value

namespace Config

/-- A level is read from its name, in whatever letters. -/
theorem verbosityOf?_eq_some_iff {value : Value} {v : Verbosity} :
    verbosityOf? value = some v ↔ value.plain.toLower = v.name :=
  Verbosity.ofName?_eq_some_iff

/-- A tag field is read from a text that is not empty. -/
theorem tagFieldOf?_eq_some_iff {value : Value} {s : String} :
    tagFieldOf? value = some s ↔ s ≠ "" ∧ value = .str s := by
  unfold tagFieldOf?
  split
  · rename_i t
    simp only [Option.ite_none_left_eq_some, String.isEmpty_iff, Option.some.injEq, Value.str.injEq]
    constructor
    · rintro ⟨hne, rfl⟩
      exact ⟨hne, rfl⟩
    · rintro ⟨hne, rfl⟩
      exact ⟨hne, rfl⟩
  · rename_i hvalue
    exact iff_of_false (Option.some_ne_none s).symm fun h => hvalue s h.2

/-- Skipped fields are read from a text or a list of texts, and none from anything false. -/
theorem skipFieldsOf?_eq_some_iff {value : Value} {names : List String} :
    skipFieldsOf? value = some names ↔ if value.isTrue then
      (∃ s, value = .str s ∧ names = [s]) ∨ value = .list (names.map .str) else names = [] := by
  unfold skipFieldsOf?
  cases htrue : value.isTrue with
  | false => simp [eq_comm]
  | true =>
    simp only [Bool.not_true, Bool.false_eq_true, if_false, if_true]
    split
    · rename_i s
      simp [eq_comm]
    · rename_i items
      simp [Value.mapM_text?_eq_some_iff]
    · rename_i hstr hlist
      refine iff_of_false (Option.some_ne_none names).symm ?_
      rintro (⟨s, hvalue, -⟩ | hvalue)
      · exact hstr s hvalue
      · exact hlist _ hvalue

/-- The values that give no verbosity are those that are refused. -/
theorem verbosityOf?_eq_none_iff {value : Value} :
    verbosityOf? value = none ↔ Setting.verbosity.Refuses value := by
  -- There are three levels, so their names can be listed.
  have hnames : value.plain.toLower ∈ ["quiet", "normal", "verbose"] ↔
      ∃ v : Verbosity, value.plain.toLower = v.name := by
    constructor
    · intro hmem
      simp only [List.mem_cons, List.not_mem_nil, or_false] at hmem
      rcases hmem with hname | hname | hname
      · exact ⟨.quiet, hname⟩
      · exact ⟨.normal, hname⟩
      · exact ⟨.verbose, hname⟩
    · rintro ⟨v, hname⟩
      rw [hname]
      cases v <;> simp [Verbosity.name]
  simp [Option.eq_none_iff_forall_ne_some, verbosityOf?_eq_some_iff, Setting.Refuses,
    Setting.Admits, hnames]

/-- The values that give no tag field are those that are refused. -/
theorem tagFieldOf?_eq_none_iff {value : Value} :
    tagFieldOf? value = none ↔ Setting.tagField.Refuses value := by
  simp [Option.eq_none_iff_forall_ne_some, tagFieldOf?_eq_some_iff, Setting.Refuses,
    Setting.Admits]

/-- The values that give no fields to skip are those that are refused. -/
theorem skipFieldsOf?_eq_none_iff {value : Value} :
    skipFieldsOf? value = none ↔ Setting.skipFields.Refuses value := by
  rw [Option.eq_none_iff_forall_ne_some]
  constructor
  · -- What is false is read as no fields, so a value that is not read is true.
    intro hnone
    have htrue : value.isTrue = true := by
      by_contra hfalse
      exact hnone [] (skipFieldsOf?_eq_some_iff.mpr (by rw [if_neg hfalse]))
    refine ⟨?_, fun _ => htrue⟩
    rintro (rfl | ⟨s, rfl⟩ | ⟨names, rfl⟩)
    · cases htrue
    · exact hnone [s] (skipFieldsOf?_eq_some_iff.mpr (by simp [htrue]))
    · exact hnone names (skipFieldsOf?_eq_some_iff.mpr (by simp [htrue]))
  · rintro ⟨hadmits, htrue⟩ names hsome
    rw [skipFieldsOf?_eq_some_iff, if_pos (htrue rfl)] at hsome
    rcases hsome with ⟨s, rfl, -⟩ | rfl
    · exact hadmits (.inr (.inl ⟨s, rfl⟩))
    · exact hadmits (.inr (.inr ⟨names, rfl⟩))

/-! ## The settings that a mapping holds -/

variable {path : String} {entries : List (Value × Value)} {c : Config}

/-- The value of a setting among entries, or the one that stands for it if there is none. -/
def given (entries : List (Value × Value)) (s : Setting) : Value :=
  setting s s.default entries

/-- What is given for a setting is the entry with its name. -/
theorem given_eq {s : Setting} {value : Value}
    (h : Value.entry? s.name entries = some value) : given entries s = value := by
  unfold given setting
  rw [h]
  rfl

/-- A value that is refused is among the entries. -/
theorem refuses_given_iff {s : Setting} : s.Refuses (given entries s) ↔
    ∃ value, Value.entry? s.name entries = some value ∧ s.Refuses value := by
  unfold given setting
  cases hentry : Value.entry? s.name entries with
  | none => simp [s.not_refuses_default]
  | some value => simp

section

variable {α : Type} {s : Setting} {value : Value} {read : Value → Option α}

/-- A check passes what can be read. -/
theorem check_eq_ok_iff {a : α} : check path s value read = .ok a ↔ read value = some a := by
  unfold check
  cases read value <;> simp

/-- A check passes everything that can be read. -/
theorem exists_check (h : read value ≠ none) : ∃ a, check path s value read = .ok a := by
  obtain ⟨a, hread⟩ := Option.ne_none_iff_exists'.mp h
  exact ⟨a, check_eq_ok_iff.mpr hread⟩

/-- A check refuses what cannot be read, and names the setting. -/
theorem check_eq_error (h : read value = none) :
    check path s value read = .error (.invalid s path value) := by
  unfold check
  rw [h]

end

/-- What is read from a value that is not refused is what it gives. -/
theorem gives_iff {s : Setting} {value : Value} : ¬ s.Refuses value ∧ s.Gives c value ↔
    match s with
    | .verbosity => verbosityOf? value = some c.verbosity
    | .tagField => tagFieldOf? value = some c.tagField
    | .skipFields => skipFieldsOf? value = some c.skipFields := by
  -- The three settings differ in what they take for false: only skipped fields are none then.
  cases s with
  | verbosity =>
    rw [← verbosityOf?_eq_none_iff]
    constructor
    · rintro ⟨-, hmeans, -⟩
      exact verbosityOf?_eq_some_iff.mpr (hmeans (.inl Setting.noConfusion))
    · intro hread
      have hmeans := verbosityOf?_eq_some_iff.mp hread
      exact ⟨by simp [hread], fun _ => hmeans, Setting.noConfusion⟩
  | tagField =>
    rw [← tagFieldOf?_eq_none_iff]
    constructor
    · rintro ⟨hread, hmeans, -⟩
      obtain ⟨s, hread⟩ := Option.ne_none_iff_exists'.mp hread
      obtain ⟨-, rfl⟩ := tagFieldOf?_eq_some_iff.mp hread
      rw [hread, Value.str.inj (hmeans (.inl Setting.noConfusion))]
    · intro hread
      have hmeans := (tagFieldOf?_eq_some_iff.mp hread).2
      exact ⟨by simp [hread], fun _ => hmeans, Setting.noConfusion⟩
  | skipFields =>
    rw [← skipFieldsOf?_eq_none_iff]
    constructor
    · rintro ⟨hread, hmeans, hfalse⟩
      refine skipFieldsOf?_eq_some_iff.mpr ?_
      cases htrue : value.isTrue with
      | false => exact hfalse rfl htrue
      | true =>
        rcases hmeans (.inr htrue) with ⟨rfl, -⟩ | hmeans
        · cases htrue
        · exact hmeans
    · intro hread
      refine ⟨by simp [hread], fun htrue => ?_, fun _ hfalse => ?_⟩
      · have htrue' : value.isTrue = true := htrue.resolve_left (not_not.mpr rfl)
        rw [skipFieldsOf?_eq_some_iff, if_pos htrue'] at hread
        exact .inr hread
      · rw [skipFieldsOf?_eq_some_iff, hfalse] at hread
        exact hread

/-- The settings are checked one after the other. -/
theorem ofEntries_eq : ofEntries path entries = (do
    let verbosity ← check path .verbosity (given entries .verbosity) verbosityOf?
    let tagField ← check path .tagField (given entries .tagField) tagFieldOf?
    let skipFields ← check path .skipFields (given entries .skipFields) skipFieldsOf?
    return ⟨tagField, skipFields, verbosity⟩) := rfl

/-- If all three settings can be read, they make the configuration. -/
theorem ofEntries_of_read (hverbosity : verbosityOf? (given entries .verbosity) = some c.verbosity)
    (htagField : tagFieldOf? (given entries .tagField) = some c.tagField)
    (hskipFields : skipFieldsOf? (given entries .skipFields) = some c.skipFields) :
    ofEntries path entries = .ok c := by
  rw [ofEntries_eq, check_eq_ok_iff.mpr hverbosity, check_eq_ok_iff.mpr htagField,
    check_eq_ok_iff.mpr hskipFields]
  rfl

/-- The entries of a mapping are accepted just if no value is refused, and the settings are what
    the values give. -/
theorem ofEntries_eq_ok_iff : ofEntries path entries = .ok c ↔
    ∀ s : Setting, ¬ s.Refuses (given entries s) ∧ s.Gives c (given entries s) := by
  constructor
  · -- The checks have all passed, and each is about one of the settings.
    intro h s
    rw [ofEntries_eq] at h
    obtain ⟨verbosity, hverbosity, h⟩ := exists_of_bind_eq_ok h
    obtain ⟨tagField, htagField, h⟩ := exists_of_bind_eq_ok h
    obtain ⟨skipFields, hskipFields, h⟩ := exists_of_bind_eq_ok h
    obtain rfl := Except.ok.inj h
    rw [gives_iff]
    cases s with
    | verbosity => exact check_eq_ok_iff.mp hverbosity
    | tagField => exact check_eq_ok_iff.mp htagField
    | skipFields => exact check_eq_ok_iff.mp hskipFields
  · intro h
    exact ofEntries_of_read (gives_iff.mp (h .verbosity)) (gives_iff.mp (h .tagField))
      (gives_iff.mp (h .skipFields))

/-- If no value is refused then the entries give some settings. -/
theorem exists_ofEntries (h : ∀ s : Setting, ¬ s.Refuses (given entries s)) :
    ∃ c, ofEntries path entries = .ok c := by
  have hverbosity := mt verbosityOf?_eq_none_iff.mp (h .verbosity)
  have htagField := mt tagFieldOf?_eq_none_iff.mp (h .tagField)
  have hskipFields := mt skipFieldsOf?_eq_none_iff.mp (h .skipFields)
  obtain ⟨verbosity, hverbosity⟩ := Option.ne_none_iff_exists'.mp hverbosity
  obtain ⟨tagField, htagField⟩ := Option.ne_none_iff_exists'.mp htagField
  obtain ⟨skipFields, hskipFields⟩ := Option.ne_none_iff_exists'.mp hskipFields
  exact ⟨⟨tagField, skipFields, verbosity⟩, ofEntries_of_read hverbosity htagField hskipFields⟩

/-- Whether the value of a setting is refused and those of the settings that are looked at before
    it are not. -/
def FirstRefused (entries : List (Value × Value)) (s : Setting) : Prop :=
  s.Refuses (given entries s) ∧ ∀ before ∈ s.earlier, ¬ before.Refuses (given entries before)

/-- If some setting is refused, one of them is the first. -/
theorem exists_firstRefused {s : Setting} (h : s.Refuses (given entries s)) :
    ∃ first, FirstRefused entries first := by
  by_cases hverbosity : Setting.verbosity.Refuses (given entries .verbosity)
  · exact ⟨.verbosity, hverbosity, by simp [Setting.earlier]⟩
  by_cases htagField : Setting.tagField.Refuses (given entries .tagField)
  · exact ⟨.tagField, htagField, by simpa [Setting.earlier]⟩
  · refine ⟨.skipFields, ?_, by simp [Setting.earlier, hverbosity, htagField]⟩
    cases s with
    | verbosity => exact absurd h hverbosity
    | tagField => exact absurd h htagField
    | skipFields => exact h

/-- The first value that is refused is what is complained of. -/
theorem ofEntries_of_firstRefused {s : Setting} (h : FirstRefused entries s) :
    ofEntries path entries = .error (.invalid s path (given entries s)) := by
  obtain ⟨hrefused, hearlier⟩ := h
  -- The values that are looked at before the refused one are read, those after it are not reached.
  have hverbosity (hbefore : .verbosity ∈ s.earlier) :
      ∃ a, check path .verbosity (given entries .verbosity) verbosityOf? = .ok a :=
    exists_check (mt verbosityOf?_eq_none_iff.mp (hearlier _ hbefore))
  have htagField (hbefore : .tagField ∈ s.earlier) :
      ∃ a, check path .tagField (given entries .tagField) tagFieldOf? = .ok a :=
    exists_check (mt tagFieldOf?_eq_none_iff.mp (hearlier _ hbefore))
  rw [ofEntries_eq]
  cases s with
  | verbosity =>
    rw [check_eq_error (verbosityOf?_eq_none_iff.mpr hrefused)]
    rfl
  | tagField =>
    obtain ⟨_, hverbosity⟩ := hverbosity (by simp [Setting.earlier])
    rw [hverbosity, check_eq_error (tagFieldOf?_eq_none_iff.mpr hrefused)]
    rfl
  | skipFields =>
    obtain ⟨_, hverbosity⟩ := hverbosity (by simp [Setting.earlier])
    obtain ⟨_, htagField⟩ := htagField (by simp [Setting.earlier])
    rw [hverbosity, htagField, check_eq_error (skipFieldsOf?_eq_none_iff.mpr hrefused)]
    rfl

/-- Entries are refused with the first setting that refuses what is given for it. -/
theorem ofEntries_eq_error_iff {e : ConfigError} : ofEntries path entries = .error e ↔
    ∃ s, FirstRefused entries s ∧ e = .invalid s path (given entries s) := by
  constructor
  · intro h
    -- Either the first refusal is reported, or nothing is refused and there is a configuration.
    by_cases hfault : ∃ s : Setting, s.Refuses (given entries s)
    · obtain ⟨s, hrefused⟩ := hfault
      obtain ⟨first, hfirst⟩ := exists_firstRefused hrefused
      rw [ofEntries_of_firstRefused hfirst] at h
      exact ⟨first, hfirst, (Except.error.inj h).symm⟩
    · obtain ⟨c, hc⟩ : ∃ c, ofEntries path entries = .ok c :=
        exists_ofEntries (not_exists.mp hfault)
      rw [h] at hc
      cases hc
  · rintro ⟨s, hfirst, rfl⟩
    exact ofEntries_of_firstRefused hfirst

end Config

/-! ## Files with settings -/

namespace Config

variable {readers : Readers} {find : String → Option FileEntry} {path path' : String}
  {format format' : DocumentFormat} {value : Value} {entries aside : List (Value × Value)}

/-- Whether the file that a path leads to holds a value, in the format that its suffix shows if
    capitals are not told from small letters. -/
inductive Holds (readers : Readers) (find : String → Option FileEntry) (path : String)
    (value : Value) : DocumentFormat → Prop
  | json {text : List Char}
      (hsuffix : DocumentFormat.ofSuffix? (PathName.suffix (PathName.normalize path)) = some .json)
      (hfind : find (PathName.normalize path) = some (.file (Utf8.encode text)))
      (hread : readers.json (unifyNewlines text) = .ok value) : Holds readers find path value .json
  | yaml {content : List UInt8}
      (hsuffix : DocumentFormat.ofSuffix? (PathName.suffix (PathName.normalize path)) = some .yaml)
      (hfind : find (PathName.normalize path) = some (.file content))
      (hread : readers.yamlFile content = .ok value) : Holds readers find path value .yaml

/-- What is taken for the value of a file: for a YAML value that counts as false, the empty
    mapping. -/
def taken (format : DocumentFormat) (value : Value) : Value :=
  if format = .yaml ∧ value.isTrue = false then .dict [] else value

/-- The value of a JSON file is what its text is read as. -/
theorem jsonValue_encode {text : List Char} (h : readers.json (unifyNewlines text) = .ok value) :
    jsonValue readers (Utf8.encode text) = .ok (taken .json value) := by
  unfold jsonValue
  rw [Utf8.decode_encode]
  simp only [Except.mapError, bind, Except.bind, h]
  rfl

/-- The value of a YAML file is what its bytes are read as. -/
theorem yamlValue_eq {content : List UInt8} (h : readers.yamlFile content = .ok value) :
    yamlValue readers content = .ok (taken .yaml value) := by
  unfold yamlValue
  rw [h]
  show Except.ok (if value.isTrue then value else .dict []) = _
  unfold taken
  cases value.isTrue <;> simp

/-- The suffix of a file with a value shows the format. -/
theorem Holds.ofSuffix? (h : Holds readers find path value format) :
    DocumentFormat.ofSuffix? (PathName.suffix (PathName.normalize path)) = some format := by
  cases h with
  | json hsuffix => exact hsuffix
  | yaml hsuffix => exact hsuffix

/-- A file with a value has content from which the reader of its format takes it. -/
theorem Holds.exists_content (h : Holds readers find path value format) :
    ∃ content, find (PathName.normalize path) = some (.file content) ∧
      (format = .json → jsonValue readers content = .ok (taken .json value)) ∧
      (format = .yaml → yamlValue readers content = .ok (taken .yaml value)) := by
  cases h with
  | json _ hfind hread => exact ⟨_, hfind, fun _ => jsonValue_encode hread, nofun⟩
  | yaml _ hfind hread => exact ⟨_, hfind, nofun, fun _ => yamlValue_eq hread⟩

/-- A file with a value is read if its suffix is one of those that are known, all in lower case. -/
theorem load_of_holds (h : Holds readers find path value format) :
    let suffix := PathName.suffix (PathName.normalize path)
    load readers find path =
      if suffix ∈ [".json", ".yaml", ".yml"] then ofValue path (taken format value)
      else .error (.unknownFormat suffix) := by
  have hsuffix := h.ofSuffix?
  obtain ⟨content, hfind, hjson, hyaml⟩ := h.exists_content
  unfold load
  dsimp only
  rw [hfind]
  dsimp only
  generalize PathName.suffix (PathName.normalize path) = suffix at hsuffix
  -- A suffix that is known as it stands is that of the format in which the file holds the value.
  split
  · obtain rfl : format = .yaml := Option.some.inj
      (hsuffix.symm.trans (DocumentFormat.ofSuffix?_eq (t := ".yaml") rfl (by decide)))
    rw [hyaml rfl]
    rfl
  · obtain rfl : format = .yaml := Option.some.inj
      (hsuffix.symm.trans (DocumentFormat.ofSuffix?_eq (t := ".yml") rfl (by decide)))
    rw [hyaml rfl]
    rfl
  · obtain rfl : format = .json := Option.some.inj
      (hsuffix.symm.trans (DocumentFormat.ofSuffix?_eq (t := ".json") rfl (by decide)))
    rw [hjson rfl]
    rfl
  · rename_i hnyaml hnyml hnjson
    rw [if_neg]
    · rfl
    · simp only [List.mem_cons, List.not_mem_nil, or_false]
      rintro (hsuffix | hsuffix | hsuffix)
      · exact hnjson hsuffix
      · exact hnyaml hsuffix
      · exact hnyml hsuffix

/-- What is taken for a mapping has its entries. -/
theorem ofValue_taken_dict :
    ofValue path (taken format (.record .dict entries aside)) = ofEntries path entries := by
  unfold taken
  split
  · rename_i hfalse
    cases entries with
    | nil => rfl
    | cons entry rest => cases hfalse.2
  · rfl

/-- An empty mapping holds the default settings. -/
theorem ofEntries_nil : ofEntries path [] = .ok {} := by
  rw [ofEntries_eq_ok_iff]
  intro s
  refine ⟨s.not_refuses_default, fun _ => ?_, fun _ _ => rfl⟩
  cases s with
  | verbosity => exact toLower_eq (t := "quiet") rfl
  | tagField => rfl
  | skipFields => exact .inl ⟨rfl, rfl⟩

/-- The settings in a file with a mapping are those of its entries. -/
theorem load_of_holds_dict (h : Holds readers find path (.dict entries) format)
    (hsuffix : PathName.suffix (PathName.normalize path) ∈ [".json", ".yaml", ".yml"]) :
    load readers find path = ofEntries path entries := by
  rw [load_of_holds h, if_pos hsuffix, ofValue_taken_dict]

/-- Of the values that are not mappings, a YAML file is as good as empty with those that count as
    false; all others are refused. -/
theorem ofValue_taken (h : ∀ entries aside, value ≠ .record .dict entries aside) :
    ofValue path (taken format value) = if format = .yaml ∧ value.isTrue = false then .ok {}
      else .error (.notMapping value.typeName) := by
  unfold taken
  split
  · exact ofEntries_nil
  · unfold ofValue
    split
    · exact absurd rfl (h _ _)
    · rfl

/-- The adapter of settings skips the fields they name, and no others. -/
theorem skips_adapter_iff {c : Config} {name : Value} :
    c.adapter.skips name = true ↔ ∃ field ∈ c.skipFields, name = .str field := by
  have hsame : ∀ s, name.isText s = true ↔ name = .str s := by
    intro s
    cases name <;> simp [Value.isText]
  simp [Adapter.skips, adapter, Adapter.tagged, Value.memberOf, hsame]

/-- The settings in a file with a mapping.  They are refused for the first setting with a value
    that is refused, and otherwise are what the values give.  This is what the values are meant to
    stand for if the fields to skip, where they count as false, are null or the empty list.  The
    adapter skips the fields that the settings name and looks for their tag field. -/
theorem load_settings
    (hsuffix : PathName.suffix (PathName.normalize path) ∈ [".json", ".yaml", ".yml"])
    (h : Holds readers find path (.dict entries) format) :
    (∀ e, load readers find path = .error e ↔ ∃ s value, Value.entry? s.name entries = some value ∧
      s.Refuses value ∧ (∀ before ∈ s.earlier, ∀ other,
        Value.entry? before.name entries = some other → ¬ before.Refuses other) ∧
      e = .invalid s path value) ∧
    (∀ c, load readers find path = .ok c ↔
      (∀ s value, Value.entry? (Setting.name s) entries = some value → ¬ s.Refuses value) ∧
      ∀ s : Setting, s.Gives c ((Value.entry? s.name entries).getD s.default)) ∧
    ((∀ value, Value.entry? "skip_fields" entries = some value → value.isTrue = false →
        value = .null ∨ value = .list []) →
      ((∃ e, load readers find path = .error e) ↔
        ∃ s value, Value.entry? (Setting.name s) entries = some value ∧ ¬ s.Admits value) ∧
      ∀ c, load readers find path = .ok c →
        ∀ s : Setting, s.Means c ((Value.entry? s.name entries).getD s.default)) ∧
    ∀ c, load readers find path = .ok c → c.adapter.family = .tagged c.tagField ∧
      ∀ name, c.adapter.skips name = true ↔ ∃ field ∈ c.skipFields, name = .str field := by
  have hload : load readers find path = ofEntries path entries := load_of_holds_dict h hsuffix
  have hrefuses : (∀ s : Setting, ¬ s.Refuses (given entries s)) ↔
      ∀ s value, Value.entry? (Setting.name s) entries = some value → ¬ s.Refuses value := by
    simp [refuses_given_iff]
  have herror : ∀ e, load readers find path = .error e ↔ ∃ s value,
      Value.entry? s.name entries = some value ∧ s.Refuses value ∧ (∀ before ∈ s.earlier, ∀ other,
        Value.entry? before.name entries = some other → ¬ before.Refuses other) ∧
      e = .invalid s path value := by
    intro e
    rw [hload, ofEntries_eq_error_iff]
    constructor
    · rintro ⟨s, ⟨hrefused, hearlier⟩, rfl⟩
      obtain ⟨value, hentry, hvalue⟩ := refuses_given_iff.mp hrefused
      refine ⟨s, value, hentry, hvalue, ?_, by rw [given_eq hentry]⟩
      intro before hbefore other hother hrefuses
      exact hearlier before hbefore (refuses_given_iff.mpr ⟨other, hother, hrefuses⟩)
    · rintro ⟨s, value, hentry, hvalue, hearlier, rfl⟩
      refine ⟨s, ⟨refuses_given_iff.mpr ⟨value, hentry, hvalue⟩, ?_⟩, by rw [given_eq hentry]⟩
      intro before hbefore hrefuses
      obtain ⟨other, hother, hrefuses⟩ := refuses_given_iff.mp hrefuses
      exact hearlier before hbefore other hother hrefuses
  have hok : ∀ c, load readers find path = .ok c ↔
      (∀ s value, Value.entry? (Setting.name s) entries = some value → ¬ s.Refuses value) ∧
      ∀ s : Setting, s.Gives c ((Value.entry? s.name entries).getD s.default) := by
    intro c
    rw [hload, ofEntries_eq_ok_iff, forall_and, hrefuses]
    rfl
  refine ⟨herror, hok, ?_, fun c _ => ⟨rfl, fun name => skips_adapter_iff⟩⟩
  intro hskip
  -- Now a value is refused just if the setting is not meant to have it.
  have hplain : ∀ s value, Value.entry? (Setting.name s) entries = some value →
      s = .skipFields → value.isTrue = false → value = .null ∨ value = .list [] := by
    rintro s value hentry rfl
    exact hskip value hentry
  refine ⟨⟨?_, ?_⟩, ?_⟩
  · rintro ⟨e, he⟩
    obtain ⟨s, value, hentry, hrefuses, -, -⟩ := (herror e).mp he
    exact ⟨s, value, hentry, hrefuses.1⟩
  · rintro ⟨s, value, hentry, hadmits⟩
    cases hloaded : load readers find path with
    | error e => exact ⟨e, rfl⟩
    | ok c =>
      have hrefuses := (Setting.refuses_iff_of_plain (hplain s value hentry)).mpr hadmits
      exact absurd hrefuses (((hok c).mp hloaded).1 s value hentry)
  · intro c hloaded s
    refine (((hok c).mp hloaded).2 s).means ?_
    cases hentry : Value.entry? s.name entries with
    | none =>
      rintro rfl -
      exact .inl rfl
    | some value => exact hplain s value hentry

/-- Settings as text, which is both JSON and YAML. -/
def givenText : String :=
  "\x7b\"verbosity\": \"Normal\", \"tag_field\": \"kind\", \"skip_fields\": \"loc\"\x7d"

/-- The entries that the text spells. -/
def givenEntries : List (Value × Value) :=
  [(.str "verbosity", .str "Normal"), (.str "tag_field", .str "kind"),
    (.str "skip_fields", .str "loc")]

/-- The text under every name. -/
def givenFile : String → Option FileEntry := fun _ =>
  some (.file (Utf8.encode givenText.toList))

/-- As a JSON file it holds these entries. -/
theorem holds_givenFile_json :
    Holds .standard givenFile "c.json" (.dict givenEntries) .json :=
  .json (DocumentFormat.ofSuffix?_eq (t := ".json") rfl (by decide)) rfl (by cbv)

/-- The configuration that the entries make. -/
theorem ofEntries_givenEntries : ofEntries path givenEntries = .ok ⟨"kind", ["loc"], .normal⟩ :=
  ofEntries_of_read (verbosityOf?_eq_some_iff.mpr (toLower_eq rfl)) rfl rfl

/-- The settings in a JSON file with every setting: they are read as they are meant. -/
theorem load_settings_givenFile :
    let c : Config := ⟨"kind", ["loc"], .normal⟩
    PathName.suffix (PathName.normalize "c.json") ∈ [".json", ".yaml", ".yml"] ∧
    Holds .standard givenFile "c.json" (.dict givenEntries) .json ∧
    load .standard givenFile "c.json" = .ok c ∧
    (∀ s : Setting, s.Means c ((Value.entry? s.name givenEntries).getD s.default)) ∧
    c.adapter.family = .tagged "kind" ∧ c.adapter.skips (.str "loc") = true := by
  intro c
  have hsuffix : PathName.suffix (PathName.normalize "c.json") ∈ [".json", ".yaml", ".yml"] := by
    decide
  obtain ⟨-, -, hmeant, hadapter⟩ := load_settings hsuffix holds_givenFile_json
  -- The file holds a dictionary, so that loading it is reading its entries.
  have hload : load .standard givenFile "c.json" = .ok c :=
    (load_of_holds_dict holds_givenFile_json hsuffix).trans ofEntries_givenEntries
  have hskip : ∀ value, Value.entry? "skip_fields" givenEntries = some value →
      value.isTrue = false → value = .null ∨ value = .list [] := by
    rintro value hvalue hfalse
    obtain rfl : Value.str "loc" = value := Option.some.inj hvalue
    cases hfalse
  obtain ⟨hfamily, hskips⟩ := hadapter c hload
  exact ⟨hsuffix, holds_givenFile_json, hload, (hmeant hskip).2 c hload, hfamily, (hskips _).mpr
    ⟨"loc", List.mem_singleton.mpr rfl, rfl⟩⟩

/-- Settings with a truth value in place of the fields to skip, as text. -/
def falseText : String :=
  "\x7b\"skip_fields\": false\x7d"

/-- A truth value is accepted in place of the fields to skip. -/
theorem not_refused_falseText :
    let find : String → Option FileEntry := fun _ => some (.file (Utf8.encode falseText.toList))
    Holds .standard find "c.json" (.dict [(.str "skip_fields", .bool false)]) .json ∧
    ¬ Setting.skipFields.Admits (.bool false) ∧ load .standard find "c.json" = .ok {} := by
  intro find
  have hholds : Holds .standard find "c.json" (.dict [(.str "skip_fields", .bool false)]) .json :=
    .json (DocumentFormat.ofSuffix?_eq (t := ".json") rfl (by decide)) rfl (by cbv)
  refine ⟨hholds, by simp [Setting.Admits], ?_⟩
  rw [load_of_holds_dict hholds (by decide)]
  exact ofEntries_of_read (verbosityOf?_eq_some_iff.mpr (toLower_eq rfl)) rfl rfl

end Config

/-! ## Files with one value -/

/-- The error of the same kind about the file with the given path. -/
def ConfigError.about (path : String) : ConfigError → ConfigError
  | .notFound _ => .notFound path
  | .isDirectory _ => .isDirectory path
  | .invalid s _ value => .invalid s path value
  | error => error

/-- A suffix of documents other than source files. -/
theorem DocumentFormat.toLower_mem_of_ofSuffix? {suffix : String} {format : DocumentFormat}
    (hformat : format ≠ .source) (h : ofSuffix? suffix = some format) :
    suffix.toLower ∈ [".json", ".yaml", ".yml"] := by
  rw [ofSuffix?_eq_some_iff] at h
  simp only [List.mem_cons, List.not_mem_nil, or_false, Prod.mk.injEq] at h ⊢
  rcases h with ⟨hsmall, -⟩ | ⟨hsmall, -⟩ | ⟨hsmall, -⟩ | ⟨-, hsource⟩
  · exact .inl hsmall
  · exact .inr (.inl hsmall)
  · exact .inr (.inr hsmall)
  · exact absurd hsource hformat

namespace Config

variable {readers : Readers} {find : String → Option FileEntry} {path path' : String}
  {format format' : DocumentFormat} {value : Value}

/-- A value gives the same settings whatever file it is from, or the same error about that
    file. -/
theorem ofValue_about : ofValue path' value = (ofValue path value).mapError (.about path') := by
  unfold ofValue
  split
  · rename_i entries _
    cases h : ofEntries path entries with
    | ok c => exact ofEntries_eq_ok_iff.mpr (ofEntries_eq_ok_iff.mp h)
    | error e =>
      obtain ⟨s, hfirst, rfl⟩ := ofEntries_eq_error_iff.mp h
      exact ofEntries_of_firstRefused hfirst
  · rfl

/-- No value is refused for the format of its file. -/
theorem ofValue_ne_unknownFormat {suffix : String} :
    ofValue path value ≠ .error (.unknownFormat suffix) := by
  unfold ofValue
  split
  · intro h
    obtain ⟨s, -, he⟩ := ofEntries_eq_error_iff.mp h
    cases he
  · intro h
    cases Except.error.inj h

/-- A suffix is known just if it is written in lower case. -/
theorem suffix_mem_iff (h : Holds readers find path value format) :
    let suffix := PathName.suffix (PathName.normalize path)
    suffix ∈ [".json", ".yaml", ".yml"] ↔ suffix.toLower = suffix := by
  have hformat : format ≠ .source := by cases h <;> decide
  have hsuffix := h.ofSuffix?
  intro suffix
  -- A file that holds something has one of the three suffixes, in whatever letters.
  constructor
  · intro hmem
    simp only [List.mem_cons, List.not_mem_nil, or_false] at hmem
    rcases hmem with h | h | h
    all_goals
      rw [h]
      exact toLower_eq rfl
  · intro hlower
    have hmem := DocumentFormat.toLower_mem_of_ofSuffix? hformat hsuffix
    rwa [hlower] at hmem

/-- Two files that hold one value.  A file is refused for its suffix just if that has capitals.
    If both suffixes are in lower case then the files give the same settings, or errors that
    differ in the path alone, unless their formats differ and the value is no mapping and counts
    as false.  Such a value gives the default settings in a YAML file and an error in a JSON
    file. -/
theorem load_sameValue (h : Holds readers find path value format)
    (h' : Holds readers find path' value format') :
    let suffix := PathName.suffix (PathName.normalize path)
    let suffix' := PathName.suffix (PathName.normalize path')
    (load readers find path = .error (.unknownFormat suffix) ↔ suffix.toLower ≠ suffix) ∧
    (suffix.toLower = suffix → suffix'.toLower = suffix' →
      (load readers find path' = (load readers find path).mapError (.about path') ↔
        format = format' ∨ value.isTrue = true ∨
          ∃ entries aside, value = .record .dict entries aside)) ∧
    (suffix.toLower = suffix → (∀ entries aside, value ≠ .record .dict entries aside) →
      load readers find path = if format = .yaml ∧ value.isTrue = false then .ok {}
        else .error (.notMapping value.typeName)) := by
  intro suffix suffix'
  have hload : load readers find path =
      if suffix.toLower = suffix then ofValue path (taken format value)
      else .error (.unknownFormat suffix) := by
    rw [load_of_holds h]
    simp only [suffix_mem_iff h]
    rfl
  have hload' : load readers find path' = if suffix'.toLower = suffix' then
      ofValue path' (taken format' value) else .error (.unknownFormat suffix') := by
    rw [load_of_holds h']
    simp only [suffix_mem_iff h']
    rfl
  refine ⟨?_, ?_, ?_⟩
  · rw [hload]
    split
    · rename_i hlower
      exact iff_of_false ofValue_ne_unknownFormat (not_not.mpr hlower)
    · rename_i hlower
      exact iff_of_true rfl hlower
  · intro hlower hlower'
    rw [hload, hload', if_pos hlower, if_pos hlower']
    constructor
    · intro heq
      by_contra hcontra
      obtain ⟨hne, htrue, hdict⟩ := by simpa only [not_or, not_exists] using hcontra
      rw [ofValue_taken hdict, ofValue_taken hdict] at heq
      -- One of the formats is YAML, whose file gives the default settings.
      cases format <;> cases format'
      case json.yaml | yaml.json => simp [htrue, Except.mapError] at heq
      case json.json | yaml.yaml => exact hne rfl
      all_goals contradiction
    · rintro (rfl | htrue | ⟨entries, aside, rfl⟩)
      · exact ofValue_about
      · have htaken : ∀ format, taken format value = value := by simp [taken, htrue]
        rw [htaken, htaken]
        exact ofValue_about
      · rw [ofValue_taken_dict, ofValue_taken_dict]
        exact (ofValue_about : ofValue path' (.dict entries) = _)
  · intro hlower hdict
    rw [hload, if_pos hlower, ofValue_taken hdict]

/-- With the standard reader a YAML file holds what its text spells. -/
theorem holds_of_read_yaml {text : List Char}
    (hsuffix : DocumentFormat.ofSuffix? (PathName.suffix (PathName.normalize path)) = some .yaml)
    (hread : Yaml.read (unifyNewlines text) = .ok value) :
    Holds .standard (fun _ => some (.file (Utf8.encode text))) path value .yaml := by
  refine .yaml hsuffix rfl ?_
  show ((Utf8.decodeStream (Utf8.encode text)).mapError Utf8Error.readError >>= fun text =>
    (Yaml.read (unifyNewlines text)).mapError Yaml.Error.readError) = _
  rw [Utf8.decodeStream_encode]
  show (Yaml.read (unifyNewlines text)).mapError Yaml.Error.readError = _
  rw [hread]
  rfl

/-- As a YAML file it holds the same entries. -/
theorem holds_givenFile_yaml
    (hsuffix : DocumentFormat.ofSuffix? (PathName.suffix (PathName.normalize path)) = some .yaml) :
    Holds .standard givenFile path (.dict givenEntries) .yaml :=
  holds_of_read_yaml hsuffix (by cbv)

/-- The same settings in a JSON file and in a YAML file. -/
theorem load_sameValue_givenFile :
    Holds .standard givenFile "c.json" (.dict givenEntries) .json ∧
    Holds .standard givenFile "c.yml" (.dict givenEntries) .yaml ∧
    load .standard givenFile "c.yml" =
      (load .standard givenFile "c.json").mapError (.about "c.yml") ∧
    load .standard givenFile "c.yml" = .ok ⟨"kind", ["loc"], .normal⟩ := by
  have hholds : Holds .standard givenFile "c.yml" (.dict givenEntries) .yaml :=
    holds_givenFile_yaml (DocumentFormat.ofSuffix?_eq (t := ".yml") rfl (by decide))
  obtain ⟨-, hsame, -⟩ := load_sameValue holds_givenFile_json hholds
  have heq := (hsame (toLower_eq rfl) (toLower_eq rfl)).mpr (.inr (.inr ⟨givenEntries, [], rfl⟩))
  have hload := load_of_holds_dict hholds (by decide)
  exact ⟨holds_givenFile_json, hholds, heq, hload.trans ofEntries_givenEntries⟩

/-- Settings in a YAML file are refused if its suffix has capitals, and a file with nothing but
    null is an error in JSON only. -/
theorem not_sameValue :
    (Holds .standard givenFile "c.YAML" (.dict givenEntries) .yaml ∧
      Holds .standard givenFile "c.yaml" (.dict givenEntries) .yaml ∧
      load .standard givenFile "c.YAML" = .error (.unknownFormat ".YAML") ∧
      load .standard givenFile "c.yaml" = .ok ⟨"kind", ["loc"], .normal⟩) ∧
    let find : String → Option FileEntry := fun _ => some (.file (Utf8.encode "null".toList))
    Holds .standard find "c.json" .null .json ∧ Holds .standard find "c.yaml" .null .yaml ∧
      load .standard find "c.json" = .error (.notMapping "NoneType") ∧
      load .standard find "c.yaml" = .ok {} := by
  -- The four files hold what they should; what differs is what is loaded from them.
  have hcapitals : Holds .standard givenFile "c.YAML" (.dict givenEntries) .yaml :=
    holds_givenFile_yaml (DocumentFormat.ofSuffix?_eq (t := ".yaml") rfl (by decide))
  have hlower : Holds .standard givenFile "c.yaml" (.dict givenEntries) .yaml :=
    holds_givenFile_yaml (DocumentFormat.ofSuffix?_eq (t := ".yaml") rfl (by decide))
  have hsuffix : PathName.suffix (PathName.normalize "c.YAML") = ".YAML" := by decide
  refine ⟨⟨hcapitals, hlower, ?_, ?_⟩, ?_⟩
  · rw [load_of_holds hcapitals, hsuffix, if_neg (by decide)]
  · have hload := load_of_holds_dict hlower (by decide)
    exact hload.trans ofEntries_givenEntries
  · intro find
    have hjson : Holds .standard find "c.json" .null .json :=
      .json (DocumentFormat.ofSuffix?_eq (t := ".json") rfl (by decide)) rfl (by cbv)
    have hyaml : Holds .standard find "c.yaml" .null .yaml :=
      holds_of_read_yaml (DocumentFormat.ofSuffix?_eq (t := ".yaml") rfl (by decide)) (by cbv)
    have hnull : ∀ entries aside, Value.null ≠ .record .dict entries aside := by simp
    refine ⟨hjson, hyaml, ?_, ?_⟩
    · rw [load_of_holds hjson, if_pos (by decide), ofValue_taken hnull]
      rfl
    · rw [load_of_holds hyaml, if_pos (by decide), ofValue_taken hnull]
      rfl

end Config

end TreeWalk
