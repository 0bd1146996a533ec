import Mathlib.Data.List.Forall2
import TreeWalk.Program
import TreeWalk.Proofs.Simulation

/-! # Sessions

What the parts of a session print, and how a run of the program ends with them, whatever the
packages are.

## Key results

* `Session.print_of_marked` and `Session.fail_of_marked` say what printing comes to.
* `Session.forM_print_cases` says that printing texts in a row succeeds or ends in a crash.
* `Started` is a command line that gets as far as its settings; `Started.run_of_settings_error`,
  `Started.run_of_document_error` and the lemmas for the commands say how its run ends.
-/

namespace TreeWalk

namespace Terminal

/-- What comes out when texts are printed as they stand, one after the other. -/
def literals (terminal : Terminal) (texts : List String) : String :=
  String.join (texts.map terminal.literal)

/-- Texts are printed literally one after the other. -/
theorem literals_append (terminal : Terminal) (texts more : List String) :
    terminal.literals (texts ++ more) = terminal.literals texts ++ terminal.literals more := by
  unfold literals
  rw [List.map_append, String.join_append]

end Terminal

namespace Program

namespace Session

variable {packages : Packages} {terminal : Terminal} {printed : String}

/-! ## Printing -/

/-- A report that could be made is printed. -/
theorem report_ok {text : String} : report (.ok text) printed = .ok () (printed ++ text) :=
  rfl

/-- A text is printed as the terminal makes it. -/
theorem print_of_marked {text out : String} (h : terminal.marked text = .ok out) :
    print terminal text printed = .ok () (printed ++ out) := by
  unfold print
  rw [h]
  rfl

/-- A text with markup that cannot be followed ends the session. -/
theorem print_of_error {text : String} {error : MarkupError}
    (h : terminal.marked text = .error error) :
    print terminal text printed = .error (.crash (.report (.markup error))) printed := by
  unfold print
  rw [h]
  rfl

/-- Texts are printed one after the other. -/
theorem forM_print_of_marked {texts outs : List String}
    (h : List.Forall₂ (fun text out => terminal.marked text = .ok out) texts outs) :
    texts.forM (print terminal) printed = .ok () (printed ++ String.join outs) := by
  induction h generalizing printed with
  | nil =>
    rw [String.join_nil, String.append_empty]
    rfl
  | @cons text out texts outs hout _ ih =>
    show (print terminal text >>= fun _ => texts.forM (print terminal)) printed = _
    rw [bind_of_ok (print_of_marked hout), ih, String.join_cons, String.append_assoc]

/-- Texts printed one after the other all come out, or one of them ends the session. -/
theorem forM_print_cases (texts : List String) (printed : String) :
    (∃ outs, List.Forall₂ (fun text out => terminal.marked text = .ok out) texts outs) ∨
      ∃ cause printed', texts.forM (print terminal) printed = .error (.crash cause) printed' := by
  induction texts generalizing printed with
  | nil => exact .inl ⟨[], .nil⟩
  | cons text texts ih =>
    -- The texts are printed in order up to the first that cannot be.
    cases hmarked : terminal.marked text with
    | error error =>
      refine .inr ⟨.report (.markup error), printed, ?_⟩
      show (print terminal text >>= fun _ => texts.forM (print terminal)) printed = _
      exact bind_of_error (print_of_error hmarked)
    | ok out =>
      rcases ih (printed ++ out) with ⟨outs, houts⟩ | ⟨cause, printed', hcrash⟩
      · exact .inl ⟨out :: outs, .cons hmarked houts⟩
      · refine .inr ⟨cause, printed', ?_⟩
        show (print terminal text >>= fun _ => texts.forM (print terminal)) printed = _
        rw [bind_of_ok (print_of_marked hmarked)]
        exact hcrash

/-- Log lines are printed as they stand. -/
theorem forM_printLog (lines : List String) :
    lines.forM (printLog terminal) printed = .ok () (printed ++ terminal.literals lines) := by
  unfold Terminal.literals
  induction lines generalizing printed with
  | nil =>
    rw [List.map_nil, String.join_nil, String.append_empty]
    rfl
  | cons line lines ih =>
    have hline : printLog terminal line printed = .ok () (printed ++ terminal.literal line) := rfl
    show (printLog terminal line >>= fun _ => lines.forM (printLog terminal)) printed = _
    rw [bind_of_ok hline, ih, List.map_cons, String.join_cons, String.append_assoc]

/-- What went wrong is printed before the session ends. -/
theorem fail_of_marked {what message out : String}
    (h : terminal.marked ("[red]" ++ what ++ ": " ++ message ++ "[/red]") = .ok out) :
    (fail terminal what message : Session α) printed =
      .error (.status failureStatus) (printed ++ out) := by
  show (print terminal _ >>= fun _ => leave failureStatus) printed = _
  rw [bind_of_ok (print_of_marked h)]
  rfl

/-! ## Settings and documents -/

variable {find : String → Option FileEntry} {i : Invocation} {config : Config} {d : Document}

/-- Settings that cannot be read are reported. -/
theorem settings_of_load_error {path : String} {error : ConfigError}
    (hconfig : i.config = some path)
    (hload : Config.load packages.readers find (PathName.normalize path) = .error error)
    {exit : Exit} {printed' : String}
    (hfail : (fail packages.terminal "Error loading config" error.message : Session Config)
      printed = .error exit printed') :
    settings packages find i printed = .error exit printed' := by
  unfold settings
  rw [hconfig]
  simp only [hload]
  exact bind_of_error hfail

/-- That a document has been loaded is logged. -/
theorem document_of_load_ok (hload : Document.load packages.readers find
      (PathName.normalize i.path) config.tagField (config.skipFields.map Value.str) = .ok d) :
    document packages find i config printed = .ok d (printed ++ packages.terminal.literals
      ((VerbositySetting.level config.verbosity).lines .debug
        ("Loaded " ++ d.path ++ " as " ++ d.format.name))) := by
  unfold document
  simp only [hload]
  show (log _ _ _ _ >>= fun _ => Pure.pure d) printed = _
  rw [log, bind_of_ok (forM_printLog _)]
  rfl

/-- A document that cannot be read is reported, if that is accounted for. -/
theorem document_of_load_error {error : LoadError}
    (hload : Document.load packages.readers find (PathName.normalize i.path)
      config.tagField (config.skipFields.map Value.str) = .error error)
    (hreported : isReported error = true) :
    document packages find i config printed =
      (fail packages.terminal "Error loading tree" error.message : Session Document) printed := by
  unfold document
  simp only [hload, hreported, ↓reduceIte]

end Session

/-! ## Runs -/

variable {packages : Packages} {find : String → Option FileEntry} {words : List String}
  {i : Invocation} {format : Session.OutputFormat} {config : Config} {d : Document}
  {printed : String}

/-- A command line that gets as far as its settings: it can be read, its path leads somewhere and
    there is the output format that it asks for. -/
structure Started (packages : Packages) (find : String → Option FileEntry) (words : List String)
    (i : Invocation) (format : Session.OutputFormat) : Prop where
  invocation : packages.commandLine words = .invocation i
  found : (find i.path).isNone = false
  output : Session.outputFormat i.output "" = .ok format ""

namespace Started

/-- The run of a command line is what its invocation comes to. -/
theorem run_of_ok (h : Started packages find words i format)
    (hinvoke : Session.invoke packages find i "" = .ok () printed) :
    run packages find words = ⟨0, printed, none⟩ := by
  unfold run
  rw [h.invocation]
  simp only [EStateM.run, hinvoke]

/-- A run that has started ends with the status that its command leaves with. -/
theorem run_of_status {code : Nat} (h : Started packages find words i format)
    (hinvoke : Session.invoke packages find i "" = .error (.status code) printed) :
    run packages find words = ⟨code, printed, none⟩ := by
  unfold run
  rw [h.invocation]
  simp only [EStateM.run, hinvoke]

/-- A run that has started fails if its command crashes. -/
theorem run_of_crash {cause : Crash} (h : Started packages find words i format)
    (hinvoke : Session.invoke packages find i "" = .error (.crash cause) printed) :
    run packages find words = ⟨failureStatus, printed, some cause⟩ := by
  unfold run
  rw [h.invocation]
  simp only [EStateM.run, hinvoke]

/-- Without settings nothing else is done. -/
theorem invoke_of_settings_error {exit : Exit} (h : Started packages find words i format)
    (hsettings : Session.settings packages find i "" = .error exit printed) :
    Session.invoke packages find i "" = .error exit printed := by
  unfold Session.invoke
  simp only [h.found, Bool.false_eq_true, ↓reduceIte]
  rw [bind_of_ok h.output]
  exact bind_of_error hsettings

variable (h : Started packages find words i format)
  (hsettings : Session.settings packages find i "" = .ok config "")

include h hsettings

/-- With settings the document is loaded. -/
theorem invoke_of_document_error {exit : Exit}
    (hdocument : Session.document packages find i config "" = .error exit printed) :
    Session.invoke packages find i "" = .error exit printed := by
  unfold Session.invoke
  simp only [h.found, Bool.false_eq_true, ↓reduceIte]
  rw [bind_of_ok h.output, bind_of_ok hsettings]
  exact bind_of_error hdocument

/-- With the document the command is run. -/
theorem invoke_of_document_ok
    (hdocument : Session.document packages find i config "" = .ok d printed) :
    (i.command = .kinds →
        Session.invoke packages find i "" = Session.kinds packages d config.verbosity printed) ∧
      (i.command = .stats →
        Session.invoke packages find i "" =
          Session.stats packages d config.verbosity format printed) ∧
      (i.command = .scopes →
        Session.invoke packages find i "" = Session.scopes packages d config.verbosity printed) := by
  unfold Session.invoke
  simp only [h.found, Bool.false_eq_true, ↓reduceIte]
  rw [bind_of_ok h.output, bind_of_ok hsettings, bind_of_ok hdocument]
  refine ⟨?_, ?_, ?_⟩ <;> intro hcommand <;> rw [hcommand]

end Started

end Program

end TreeWalk
