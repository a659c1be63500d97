import RoleAudit.Command.Arguments
import RoleAudit.Files
import RoleAudit.Model.Codec
import RoleAudit.Regex.Standard
import RoleAudit.Settings.Text

/-!
# Carrying out commands

A command reads and writes files through `Storage`, so that it runs on the files of a machine and on
files that are only a value. It ends with an exit code: zero for an audit that passed, one for an
audit that failed and for an error, two for a command line that cannot be understood.
-/

namespace RoleAudit

/-- Access to files. -/
class Storage (m : Type → Type) where
  /-- Reads a file. -/
  readText : String → m (Except FileFault String)
  /-- Writes a file. -/
  writeText : String → String → m (Except FileFault Unit)

instance : Storage (StateM Files) where
  readText path := do return (← get).read path
  writeText path text := do
    match (← get).write path text with
    | .ok files =>
      set files
      return .ok ()
    | .error fault => return .error fault

instance {ε : Type} {m : Type → Type} [Monad m] [Storage m] : Storage (ExceptT ε m) where
  readText path := ExceptT.lift (Storage.readText path)
  writeText path text := ExceptT.lift (Storage.writeText path text)

/-- Why a command could not be carried out. -/
inductive CommandError where
  /-- The settings cannot be read. -/
  | badSettings (path : String)
  /-- The model cannot be read. -/
  | badModel (path : String)
  /-- The analysis ran into an error. -/
  | analysis (cause : Error)
  /-- The report cannot be written. -/
  | lostReport (path : String)
  /-- There are settings already. -/
  | settingsExist
  /-- New settings cannot be written. -/
  | lostSettings (cause : FileFault)
  deriving DecidableEq, Repr

/-- The wording of an error. -/
def CommandError.message : CommandError → String
  | badSettings path => "Failed to load " ++ path
  | badModel path => "Failed to load model " ++ path
  | analysis cause => cause.message?.getD "malformed input"
  | lostReport path => "Failed to write " ++ path
  | settingsExist => "Configuration file already exists. Use --force to overwrite."
  | lostSettings cause => cause.message

/-- How a command ended. -/
structure Outcome where
  /-- The exit code. -/
  exitCode : Nat
  /-- What it writes to standard output. -/
  output : String := ""
  /-- What it writes to standard error. -/
  complaint : String := ""
  deriving DecidableEq, Repr

namespace Command

variable {m : Type → Type} [Monad m] [Storage m]

/-- The settings in a file, and the standard ones where there is no such file. -/
def loadSettings (path : String) : ExceptT CommandError m Settings := do
  match ← Storage.readText path with
  | .error .absent => return {}
  | .error _ => throw (.badSettings path)
  | .ok text =>
    match Settings.ofText .standard text with
    | .ok settings => return settings
    | .error _ => throw (.badSettings path)

/-- The model in a file. -/
def loadModel (path : String) : ExceptT CommandError m Model := do
  match ← Storage.readText path with
  | .error _ => throw (.badModel path)
  | .ok text =>
    match Model.ofText text with
    | .ok model => return model
    | .error _ => throw (.badModel path)

/-- Carries out an audit. The result is whether it passed, and the report unless it went to a
file. -/
def runAudit (styled : Bool) (c : AuditCommand) : ExceptT CommandError m (Bool × String) := do
  let settings ← loadSettings c.settings
  let model ← loadModel c.model
  match model.audit .standard settings with
  | .error cause => throw (.analysis cause)
  | .ok report =>
    let text := report.print c.form (styled && !c.plain) (0 < c.verbosity)
    match c.output with
    | none => return (report.passed, text)
    | some path =>
      match ← Storage.writeText path text with
      | .ok () => return (report.passed, "")
      | .error _ => throw (.lostReport path)

/-- The settings that `init` writes. -/
def startingSettings : String :=
  "\n".intercalate [
    "# Archlens Configuration",
    "",
    "[classification]",
    "exclude_patterns = [\"**.generated.**\"]",
    "",
    "[classification.explicit]",
    "# \"com.acme.order.Order\" = \"AGGREGATE_ROOT\"",
    "",
    "[classification.validation]",
    "fail_on_unclassified = false",
    "fail_on_conflict = true",
    "",
    "[cycles]",
    "max_cycles = 100",
    "max_dependencies_per_edge = 10",
    "include_transitive = true",
    "",
    "[audit]",
    "disabled = []",
    "fail_on = \"CRITICAL\"",
    "",
    "[audit.severity_overrides]",
    "# \"hexagonal:port-coverage\" = \"MINOR\"",
    ""]

/-- Writes settings to start from. The result is what is said about it. -/
def runInit (force : Bool) : ExceptT CommandError m String := do
  match ← Storage.readText defaultSettingsPath, force with
  | .error .absent, _ | _, true =>
    match ← Storage.writeText defaultSettingsPath startingSettings with
    | .ok () => return "Created " ++ defaultSettingsPath ++ " configuration file\n"
    | .error cause => throw (.lostSettings cause)
  | _, false => throw .settingsExist

/-- What is said to a user who asks for help or is misunderstood. -/
def usage : String :=
  "Usage: archlens audit [-c <FILE>] [-f text|json] [-o <FILE>] [--plain] [-v]... <MODEL>\n"
    ++ "       archlens init [-f]\n"

/-- The outcome when no command is carried out. -/
def interrupted : Interruption → Outcome
  | .help => { exitCode := 0, output := usage }
  | .version => { exitCode := 0, output := "archlens 0.1.0\n" }
  | .misuse cause =>
    { exitCode := 2, complaint := "error: " ++ cause.message ++ "\n\n" ++ usage }

/-- The outcome of a command that ran into an error. -/
def failed (error : CommandError) : Outcome :=
  { exitCode := 1, complaint := "Error: " ++ error.message ++ "\n" }

/-- Carries out a command. -/
def run (styled : Bool) : Command → m Outcome
  | .audit c => do
    match ← (runAudit styled c).run with
    | .ok (passed, output) => return { exitCode := if passed then 0 else 1, output }
    | .error error => return failed error
  | .init force => do
    match ← (runInit force).run with
    | .ok output => return { exitCode := 0, output }
    | .error error => return failed error

/-- Carries out a command line. -/
def runArguments (styled : Bool) (arguments : List String) : m Outcome :=
  match ofArguments arguments with
  | .ok command => run styled command
  | .error why => return interrupted why

end Command

end RoleAudit
