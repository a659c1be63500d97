import RoleAudit.Command.Run

/-!
# The command line

Carries out a command line on the files of the machine.
-/

namespace RoleAudit

/-- The fault behind an error of the machine. -/
def FileFault.ofError : IO.Error → FileFault
  | .noFileOrDirectory .. => .absent
  | e => .other (toString e)

instance : Storage IO where
  readText path := do
    try return .ok (← IO.FS.readFile path)
    catch e => return .error (.ofError e)
  writeText path text := do
    try
      IO.FS.writeFile path text
      return .ok ()
    catch e => return .error (.ofError e)

/-- Whether the output is styled: always or never where the environment says so, and else on a
terminal. -/
def wantsStyle : IO Bool := do
  match ← IO.getEnv "CLICOLOR_FORCE", ← IO.getEnv "NO_COLOR", ← IO.getEnv "CLICOLOR" with
  | some "0", some _, _ | none, some _, _ => return false
  | some "0", none, some "0" | none, none, some "0" => return false
  | some "0", none, _ | none, none, _ => (← IO.getStdout).isTty
  | some _, _, _ => return true

end RoleAudit

/-- Runs the program. -/
def main (arguments : List String) : IO UInt32 := do
  let outcome ← RoleAudit.Command.runArguments (← RoleAudit.wantsStyle) arguments
  IO.print outcome.output
  IO.eprint outcome.complaint
  return outcome.exitCode.toUInt32
