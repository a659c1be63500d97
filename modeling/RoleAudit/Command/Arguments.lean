import RoleAudit.Audit.Printer
import RoleAudit.Command.Switch

/-!
# Commands

There are two commands: `audit` checks a model, `init` writes settings to start from.
-/

namespace RoleAudit

/-- The file that settings are read from and written to. -/
def defaultSettingsPath : String := "archlens.toml"

/-- How an audit is carried out. -/
structure AuditCommand where
  /-- The file with the model. -/
  model : String
  /-- The file with the settings. -/
  settings : String := defaultSettingsPath
  /-- The form of the report. -/
  form : ReportFormat := .text
  /-- The file for the report. -/
  output : Option String := none
  /-- Whether colours are switched off. -/
  plain : Bool := false
  /-- How much is told. -/
  verbosity : Nat := 0
  deriving DecidableEq, Repr

/-- What the user wants. -/
inductive Command where
  /-- An audit. -/
  | audit (command : AuditCommand)
  /-- New settings, in place of old ones if `force` is set. -/
  | init (force : Bool)
  deriving DecidableEq, Repr

namespace Command

/-- The switch that asks for help. -/
def helpSwitch {α : Type} : Switch α where
  letter := some 'h'
  name := "help"
  action := .flag fun _ => .error .help

/-! ## Audit -/

/-- What was read so far of an audit. -/
structure AuditDraft where
  /-- The file with the model. -/
  model : Option String := none
  /-- The file with the settings. -/
  settings : Option String := none
  /-- The form of the report. -/
  form : Option ReportFormat := none
  /-- The file for the report. -/
  output : Option String := none
  /-- Whether colours are switched off. -/
  plain : Bool := false
  /-- How much is told. -/
  verbosity : Nat := 0

/-- Fills in a value that is given at most once. -/
def fillOnce {β : Type} (name : String) (old : Option β) (value : β) :
    Except Interruption (Option β) :=
  if old.isSome then .error (.misuse (.repeated name)) else .ok (some value)

/-- A path, which is not empty. -/
def readPath (name text : String) : Except Interruption String :=
  if text.isEmpty then .error (.misuse (.missingValue name)) else .ok text

/-- The form of a report. -/
def readForm (text : String) : Except Interruption ReportFormat :=
  match text with
  | "text" => .ok .text
  | "json" => .ok .json
  | _ => .error (.misuse (.invalidValue "--format" text))

/-- The switches and operands of an audit. -/
def auditGrammar : Grammar AuditDraft where
  switches := [
    { letter := some 'c', name := "config"
      action := .value fun text d => do
        let settings ← fillOnce "--config" d.settings (← readPath "--config" text)
        return { d with settings } },
    { letter := some 'f', name := "format"
      action := .value fun text d => do
        let form ← fillOnce "--format" d.form (← readForm text)
        return { d with form } },
    { letter := some 'o', name := "output"
      action := .value fun text d => do
        let output ← fillOnce "--output" d.output (← readPath "--output" text)
        return { d with output } },
    { letter := none, name := "plain"
      action := .flag fun d =>
        if d.plain then .error (.misuse (.repeated "--plain"))
        else .ok { d with plain := true } },
    { letter := some 'v', name := "verbose"
      action := .flag fun d => .ok { d with verbosity := d.verbosity + 1 } },
    helpSwitch]
  operand text d := do
    if d.model.isSome then .error (.misuse (.needlessOperand text))
    else return { d with model := some (← readPath "<MODEL>" text) }

/-- The audit that was read. -/
def AuditDraft.finish (d : AuditDraft) : Except Interruption AuditCommand :=
  match d.model with
  | none => .error (.misuse (.missingOperand "<MODEL>"))
  | some model => .ok {
      model
      settings := d.settings.getD defaultSettingsPath
      form := d.form.getD .text
      output := d.output
      plain := d.plain
      verbosity := d.verbosity }

/-! ## New settings -/

/-- The switches of `init`; it has no operands. What is read is whether to overwrite. -/
def initGrammar : Grammar Bool where
  switches := [
    { letter := some 'f', name := "force"
      action := .flag fun force =>
        if force then .error (.misuse (.repeated "--force")) else .ok true },
    helpSwitch]
  operand text _ := .error (.misuse (.needlessOperand text))

/-! ## All commands -/

/-- What a command line without a command asks for. -/
def readTopSwitch (argument : String) : Interruption :=
  match argument.toList with
  | '-' :: 'h' :: _ => .help
  | '-' :: 'V' :: _ => .version
  | _ =>
    if argument = "--help" then .help
    else if argument = "--version" then .version
    else if Grammar.looksLikeSwitch argument then .misuse (.unknownSwitch argument)
    else .misuse (.unknownCommand argument)

/-- What is asked for after the word `help`. -/
def readHelp : List String → Interruption
  | [] => .help
  | ["audit"] => .help
  | ["init"] => .help
  | ["help"] => .help
  | name :: _ => .misuse (.unknownCommand name)

/-- The command of a command line. -/
def ofArguments : List String → Except Interruption Command
  | [] => .error (.misuse .noCommand)
  | "audit" :: rest => do
    let draft ← auditGrammar.read { state := {} } rest
    return .audit (← draft.finish)
  | "init" :: rest => do return .init (← initGrammar.read { state := false } rest)
  | "help" :: rest => .error (readHelp rest)
  | argument :: _ => .error (readTopSwitch argument)

end Command

end RoleAudit
