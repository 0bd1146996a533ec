import TreeWalk.Proofs.Sessions

/-! # The status of a run

The program ends a session in many places, and wherever it breaks one off the status is not
zero.  So if a command has been asked for and the status is zero, the run has gone through its
whole session: the path leads somewhere, and both the settings and the document are loaded.

## Key results

* `Session.FailsLoudly` is a part of a session that is broken off with a status other than zero
  only; `Session.failsLoudly_invoke` says so of every session.
* `exists_started` says what has been read and loaded in a run of a command with status zero.
-/

namespace TreeWalk

variable {σ ε α β : Type}

/-- A computation that succeeds has a first part that succeeds. -/
theorem exists_of_bind_ok {m : EStateM ε σ α} {f : α → EStateM ε σ β} {s t : σ} {b : β}
    (h : (m >>= f) s = .ok b t) : ∃ a s', m s = .ok a s' ∧ f a s' = .ok b t := by
  cases hm : m s with
  | ok a s' =>
    rw [bind_of_ok hm] at h
    exact ⟨a, s', rfl, h⟩
  | error e s' =>
    rw [bind_of_error hm] at h
    cases h

namespace Program

/-- An end of the program whose status is not zero. -/
def Exit.Fails : Exit → Prop
  | .status code => code ≠ 0
  | .crash _ => True

namespace Session

/-- A part of a session fails loudly if its status is not zero wherever it is broken off. -/
def FailsLoudly (m : Session α) : Prop :=
  ∀ printed exit printed', m printed = .error exit printed' → exit.Fails

namespace FailsLoudly

/-- To do nothing fails loudly, as it does not fail. -/
theorem pure (a : α) : FailsLoudly (Pure.pure a : Session α) := by
  intro printed exit printed' h
  cases h

/-- One thing after the other fails loudly if each does. -/
theorem bind {m : Session α} {f : α → Session β} (hm : FailsLoudly m)
    (hf : ∀ a, FailsLoudly (f a)) : FailsLoudly (m >>= f) := by
  intro printed exit printed' h
  cases hfirst : m printed with
  | ok a between =>
    rw [bind_of_ok hfirst] at h
    exact hf a between exit printed' h
  | error e between =>
    rw [bind_of_error hfirst] at h
    cases h
    exact hm printed exit printed' hfirst

/-- A choice fails loudly if both ways do. -/
theorem ite {c : Prop} [Decidable c] {m m' : Session α} (hm : FailsLoudly m)
    (hm' : FailsLoudly m') : FailsLoudly (if c then m else m') := by
  split
  · exact hm
  · exact hm'

/-- To leave with a status other than 0 is to fail loudly. -/
theorem leave {code : Nat} (hcode : code ≠ 0) : FailsLoudly (Session.leave code : Session α) := by
  intro printed exit printed' h
  cases h
  exact hcode

/-- To crash is to fail loudly. -/
theorem crash (cause : Crash) : FailsLoudly (throw (.crash cause) : Session α) := by
  intro printed exit printed' h
  cases h
  trivial

/-- To write something fails loudly, as it does not fail. -/
theorem write (text : String) : FailsLoudly (Session.write text) := by
  intro printed exit printed' h
  cases h

/-- A report that cannot be made fails loudly. -/
theorem report (text : Except Report.Error String) : FailsLoudly (Session.report text) := by
  cases text with
  | ok text => exact write text
  | error error => exact crash (.report error)

/-- A text that cannot be printed fails loudly. -/
theorem print (terminal : Terminal) (text : String) : FailsLoudly (Session.print terminal text) :=
  report _

/-- To fail with a message is to fail loudly. -/
theorem fail (terminal : Terminal) (what message : String) :
    FailsLoudly (Session.fail terminal what message : Session α) :=
  (print terminal _).bind fun _ => leave (by decide)

/-- To do the same with several things fails loudly if it does with each. -/
theorem forM {f : α → Session Unit} (hf : ∀ a, FailsLoudly (f a)) (items : List α) :
    FailsLoudly (items.forM f) := by
  induction items with
  | nil => exact pure ()
  | cons item rest ih => exact (hf item).bind fun _ => ih

/-- To print the log fails loudly. -/
theorem printLogs (terminal : Terminal) (lines : List String) :
    FailsLoudly (lines.forM (printLog terminal)) :=
  forM (fun line => write (terminal.literal line)) lines

end FailsLoudly

variable (packages : Packages) (find : String → Option FileEntry) (i : Invocation)

/-- An output format is read without a word, or there is none of that name. -/
theorem outputFormat_cases (text : Option String) :
    (∃ format, outputFormat text = Pure.pure format) ∨ outputFormat text = leave usageStatus := by
  unfold outputFormat
  split
  · exact .inl ⟨_, rfl⟩
  · exact .inl ⟨_, rfl⟩
  · exact .inl ⟨_, rfl⟩
  · exact .inr rfl

/-- An unknown output format fails loudly. -/
theorem failsLoudly_outputFormat (text : Option String) : FailsLoudly (outputFormat text) := by
  rcases outputFormat_cases text with ⟨format, h⟩ | h
  · exact h ▸ .pure format
  · exact h ▸ .leave (by decide)

/-- A computation that ends the program does not go on. -/
theorem fail_bind (terminal : Terminal) (what message : String) (f : α → Session β) :
    (fail terminal what message >>= f) = fail terminal what message := by
  unfold fail
  rw [bind_assoc]
  rfl

/-- Settings are read without a word, or end the program: the file with them is reported or the
    verbosity has no meaning. -/
theorem settings_cases :
    (∃ config, settings packages find i = Pure.pure config) ∨
      (∃ message, settings packages find i =
        fail packages.terminal "Error loading config" message) ∨
      settings packages find i = leave usageStatus := by
  unfold settings
  dsimp only
  split
  rotate_left
  split
  rotate_left
  · exact .inr (.inl ⟨_, fail_bind ..⟩)
  -- With the settings of a file and without, it is the verbosity that is left.
  all_goals
    rw [pure_bind]
    split
    · exact .inl ⟨_, rfl⟩
    · exact .inl ⟨_, rfl⟩
    · split
      · exact .inl ⟨_, rfl⟩
      · exact .inr (.inr rfl)

/-- Settings that cannot be used fail loudly. -/
theorem failsLoudly_settings : FailsLoudly (settings packages find i) := by
  rcases settings_cases packages find i with ⟨config, h⟩ | ⟨message, h⟩ | h
  · exact h ▸ .pure config
  · exact h ▸ .fail _ _ message
  · exact h ▸ .leave (by decide)

/-- A document that cannot be loaded fails loudly. -/
theorem failsLoudly_document (config : Config) : FailsLoudly (document packages find i config) := by
  unfold document
  dsimp only
  cases Document.load packages.readers find (PathName.normalize i.path) config.tagField
      (config.skipFields.map Value.str) with
  | ok d => exact (FailsLoudly.printLogs _ _).bind fun _ => .pure _
  | error error =>
    dsimp only
    split
    · exact .fail _ _ _
    · exact .crash _

variable (d : Document) (verbosity : Verbosity)

/-- The listing of kinds fails loudly. -/
theorem failsLoudly_kinds : FailsLoudly (kinds packages d verbosity) :=
  (FailsLoudly.printLogs _ _).bind fun _ => .forM (FailsLoudly.print _) _

/-- The statistics fail loudly. -/
theorem failsLoudly_stats (format : OutputFormat) :
    FailsLoudly (stats packages d verbosity format) := by
  refine (FailsLoudly.printLogs _ _).bind fun _ => ?_
  cases format with
  | json => exact .report _
  | console => exact (FailsLoudly.report _).bind fun _ => .print _ _

/-- The drawing of scopes fails loudly. -/
theorem failsLoudly_scopes : FailsLoudly (scopes packages d verbosity) := by
  unfold scopes
  refine .ite ((FailsLoudly.printLogs _ _).bind fun _ => ?_) ?_
  all_goals
    refine (FailsLoudly.printLogs _ _).bind fun _ => ?_
    split
    · exact .report _
    · exact .crash _
    · exact .fail _ _ _
    · exact .leave (by decide)

/-- A session that is broken off has a status other than zero. -/
theorem failsLoudly_invoke : FailsLoudly (invoke packages find i) := by
  unfold invoke
  refine .ite (.leave (by decide)) ?_
  refine (failsLoudly_outputFormat i.output).bind fun format => ?_
  refine (failsLoudly_settings packages find i).bind fun config => ?_
  refine (failsLoudly_document packages find i config).bind fun d => ?_
  cases i.command with
  | kinds => exact failsLoudly_kinds packages d config.verbosity
  | stats => exact failsLoudly_stats packages d config.verbosity format
  | scopes => exact failsLoudly_scopes packages d config.verbosity

/-! ## Sessions that succeed -/

variable {packages : Packages} {find : String → Option FileEntry} {i : Invocation}
  {printed printed' : String}

/-- To find out the output format prints nothing. -/
theorem outputFormat_eq_ok {text : Option String} {format : OutputFormat}
    (h : outputFormat text printed = .ok format printed') : printed' = printed := by
  rcases outputFormat_cases text with ⟨format', heq⟩ | heq
  · rw [heq] at h
    cases h
    rfl
  · rw [heq] at h
    cases h

/-- To fail with a message has no result. -/
theorem not_fail_eq_ok {terminal : Terminal} {what message : String} {a : α} :
    (fail terminal what message : Session α) printed ≠ .ok a printed' := by
  intro h
  obtain ⟨_, _, -, hleave⟩ := exists_of_bind_ok h
  cases hleave

/-- Settings are read without a word. -/
theorem settings_eq_ok {config : Config}
    (h : settings packages find i printed = .ok config printed') : printed' = printed := by
  rcases settings_cases packages find i with ⟨config', heq⟩ | ⟨message, heq⟩ | heq
  · rw [heq] at h
    cases h
    rfl
  · rw [heq] at h
    exact absurd h not_fail_eq_ok
  · rw [heq] at h
    cases h

/-- A document that a session goes on with has been loaded. -/
theorem load_of_document_eq_ok {config : Config} {d : Document}
    (h : document packages find i config printed = .ok d printed') :
    Document.load packages.readers find (PathName.normalize i.path) config.tagField
      (config.skipFields.map Value.str) = .ok d := by
  unfold document at h
  -- A load that failed would have left the session, reported or not.
  cases hload : Document.load packages.readers find (PathName.normalize i.path) config.tagField
      (config.skipFields.map Value.str) with
  | ok d' =>
    rw [hload] at h
    obtain ⟨_, _, -, hd⟩ := exists_of_bind_ok h
    cases hd
    rfl
  | error error =>
    simp only [hload] at h
    by_cases hreported : isReported error = true
    · rw [if_pos hreported] at h
      exact absurd h not_fail_eq_ok
    · rw [if_neg hreported] at h
      cases h

end Session

/-- A run of a command with status zero has been started, and both its settings and its document
    have been loaded. -/
theorem exists_started {packages : Packages} {find : String → Option FileEntry}
    {words : List String} {i : Invocation} (hwords : packages.commandLine words = .invocation i)
    (hstatus : (run packages find words).status = 0) :
    ∃ format config d, Started packages find words i format ∧
      Session.settings packages find i "" = .ok config "" ∧
      Document.load packages.readers find (PathName.normalize i.path) config.tagField
        (config.skipFields.map Value.str) = .ok d := by
  -- The words are an invocation, and whatever failed in it would have left with another status.
  unfold run at hstatus
  rw [hwords] at hstatus
  cases hinvoke : Session.invoke packages find i "" with
  | error exit printed =>
    simp only [EStateM.run, hinvoke] at hstatus
    have hfails := Session.failsLoudly_invoke packages find i "" exit printed hinvoke
    cases exit with
    | status code => exact absurd hstatus hfails
    | crash cause => cases hstatus
  | ok result printed =>
    unfold Session.invoke at hinvoke
    split at hinvoke
    · cases hinvoke
    · next hfound =>
      obtain ⟨format, _, hformat, hinvoke⟩ := exists_of_bind_ok hinvoke
      obtain rfl := Session.outputFormat_eq_ok hformat
      obtain ⟨config, _, hsettings, hinvoke⟩ := exists_of_bind_ok hinvoke
      obtain rfl := Session.settings_eq_ok hsettings
      obtain ⟨d, _, hdocument, -⟩ := exists_of_bind_ok hinvoke
      exact ⟨format, config, d, ⟨hwords, eq_false_of_ne_true hfound, hformat⟩,
        hsettings, Session.load_of_document_eq_ok hdocument⟩

end Program

end TreeWalk
