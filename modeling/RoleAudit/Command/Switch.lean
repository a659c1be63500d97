import RoleAudit.Text.Affix

/-!
# Switches of a command line

A command line has switches and operands. A switch is written with two hyphens and its name or with
one hyphen and its letter; letters may share a hyphen. A switch that takes a value has it after an
equals sign, right after its letter, or as the next argument, which then does not look like a
switch. After `--` all arguments are operands.
-/

namespace RoleAudit

/-- Why a command line cannot be understood. -/
inductive Misuse where
  /-- No command is given. -/
  | noCommand
  /-- There is no such command. -/
  | unknownCommand (name : String)
  /-- There is no such switch. -/
  | unknownSwitch (name : String)
  /-- A switch that stands alone has a value. -/
  | needlessValue (name : String)
  /-- A switch lacks its value. -/
  | missingValue (name : String)
  /-- A switch or an operand has a value without meaning. -/
  | invalidValue (name value : String)
  /-- A switch is given twice. -/
  | repeated (name : String)
  /-- There is an operand too many. -/
  | needlessOperand (text : String)
  /-- An operand is missing. -/
  | missingOperand (name : String)
  deriving DecidableEq, Repr

/-- The wording of a misuse. -/
def Misuse.message : Misuse → String
  | noCommand => "a command is required"
  | unknownCommand name => "unrecognized command " ++ name
  | unknownSwitch name => "unexpected argument " ++ name
  | needlessValue name => "unexpected value for " ++ name
  | missingValue name => "a value is required for " ++ name
  | invalidValue name value => "invalid value " ++ value ++ " for " ++ name
  | repeated name => name ++ " cannot be used multiple times"
  | needlessOperand text => "unexpected argument " ++ text
  | missingOperand name => "required argument is missing: " ++ name

/-- Why no command is carried out. -/
inductive Interruption where
  /-- The user asks for help. -/
  | help
  /-- The user asks for the version. -/
  | version
  /-- The command line cannot be understood. -/
  | misuse (cause : Misuse)
  deriving DecidableEq, Repr

/-- What a switch does to what was read so far. -/
inductive SwitchAction (α : Type) where
  /-- It stands alone. -/
  | flag (set : α → Except Interruption α)
  /-- It takes a value. -/
  | value (set : String → α → Except Interruption α)

/-- A switch of a command. -/
structure Switch (α : Type) where
  /-- The letter, if it has one. -/
  letter : Option Char
  /-- The name. -/
  name : String
  /-- What it does. -/
  action : SwitchAction α

/-- The switches and operands of a command. -/
structure Grammar (α : Type) where
  /-- The switches. -/
  switches : List (Switch α)
  /-- What an operand does. -/
  operand : String → α → Except Interruption α

/-- What was read so far, and the switch that waits for its value. -/
structure Reading (α : Type) where
  /-- What was read so far. -/
  state : α
  /-- What to do with the next argument, if it is a value. -/
  pending : Option (Switch α × (String → α → Except Interruption α)) := none

namespace Grammar

variable {α : Type}

/-- Whether an argument looks like a switch or ends the switches. -/
def looksLikeSwitch (argument : String) : Bool :=
  Text.startsWith "-" argument && argument ≠ "-"

/-- Letters that share a hyphen. -/
def readLetters (g : Grammar α) (state : α) : List Char → Except Interruption (Reading α)
  | [] => .ok { state }
  | c :: rest =>
    match g.switches.find? (·.letter = some c) with
    | none => .error (.misuse (.unknownSwitch ("-" ++ c.toString)))
    | some switch =>
      match switch.action, rest with
      | .flag set, rest => do readLetters g (← set state) rest
      | .value set, [] => .ok { state, pending := some (switch, set) }
      | .value set, '=' :: value => do return { state := ← set (String.ofList value) state }
      | .value set, value => do return { state := ← set (String.ofList value) state }

/-- A name, and the value after an equals sign. -/
def splitName (cs : List Char) : List Char × Option (List Char) :=
  match cs.dropWhile (· ≠ '=') with
  | [] => (cs, none)
  | _ :: value => (cs.takeWhile (· ≠ '='), some value)

/-- A switch that is written with its name. -/
def readName (g : Grammar α) (state : α) (cs : List Char) : Except Interruption (Reading α) :=
  let (name, value) := splitName cs
  match g.switches.find? (·.name = String.ofList name) with
  | none => .error (.misuse (.unknownSwitch ("--" ++ String.ofList name)))
  | some switch =>
    match switch.action, value with
    | .flag set, none => do return { state := ← set state }
    | .flag _, some _ => .error (.misuse (.needlessValue ("--" ++ switch.name)))
    | .value set, none => .ok { state, pending := some (switch, set) }
    | .value set, some value => do return { state := ← set (String.ofList value) state }

/-- One argument before the end of the switches. -/
def readArgument (g : Grammar α) (state : α) (argument : String) :
    Except Interruption (Reading α) :=
  match argument.toList with
  | '-' :: '-' :: cs => g.readName state cs
  | '-' :: c :: cs => g.readLetters state (c :: cs)
  | _ => do return { state := ← g.operand argument state }

/-- All arguments. -/
def read (g : Grammar α) : Reading α → List String → Except Interruption α
  | { state, pending := none }, [] => .ok state
  | { state := _, pending := some (switch, _) }, [] =>
    .error (.misuse (.missingValue ("--" ++ switch.name)))
  | { state, pending := some (switch, set) }, argument :: rest =>
    if looksLikeSwitch argument then .error (.misuse (.missingValue ("--" ++ switch.name)))
    else do g.read { state := ← set argument state } rest
  | { state, pending := none }, "--" :: rest =>
    rest.foldlM (fun state text => g.operand text state) state
  | { state, pending := none }, argument :: rest => do g.read (← g.readArgument state argument) rest

end Grammar

end RoleAudit
