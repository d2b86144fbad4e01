/-!
# Arguments of the command line

The arguments name a command with its operands; options may stand anywhere after the command they
belong to, and the general ones anywhere. An option takes its value from behind an equals sign or
from the next argument, which must not look like an option itself. After two dashes all arguments
are operands. Reading goes from left to right and stops at the first misuse or request for help.
-/
namespace Workflow.CommandLine

/-- Where the payload of the trigger comes from. -/
inductive TriggerSource where
  /-- Nothing is given: the payload is an empty record. -/
  | absent
  /-- The text of the payload. -/
  | inline (text : String)
  /-- The path of a file with the text. -/
  | file (path : String)
deriving DecidableEq, Repr

/-- What is to be run and how. -/
structure RunOptions where
  /-- The path of a definition, or the name of a workflow. -/
  workflow : String
  trigger : TriggerSource
  autoApprove : Bool
  stubActions : Bool
deriving DecidableEq, Repr

/-- A command. -/
inductive Command where
  | validate (files : List String)
  | run (options : RunOptions)
deriving DecidableEq, Repr

/-- What the command line asks for. -/
structure Invocation where
  config : Option String
  command : Command
deriving DecidableEq, Repr

/-- Why there is nothing to do. -/
inductive Stop where
  | misuse
  | help
  | version
deriving DecidableEq, Repr

/-- The part of the command line that is being read. -/
inductive Level where
  | top
  | validate
  | run
  | help
deriving DecidableEq, Repr

/-- The options with a value. -/
inductive Parameter where
  | config
  | logFormat
  /-- The directory of log files. -/
  | logDirectory
  | trigger
  /-- The file with the payload of the trigger. -/
  | triggerFile
deriving DecidableEq, Repr

/-- The options without a value. -/
inductive Switch where
  | verbose
  | autoApprove
  | stubActions
  | help
  | version
deriving DecidableEq, Repr

namespace Parameter

/-- The parameter with a name at a level. -/
def ofName? (level : Level) (name : String) : Option Parameter :=
  match name, level with
  | "config", _ => some .config
  | "log-format", _ => some .logFormat
  | "log-dir", _ => some .logDirectory
  | "trigger", .run => some .trigger
  | "trigger-file", .run => some .triggerFile
  | _, _ => none

/-- A value is possible: a path is not empty, and a log format is one of two words. -/
def accepts (parameter : Parameter) (value : String) : Bool :=
  match parameter with
  | .config | .logDirectory | .triggerFile => value ≠ ""
  | .logFormat => value = "text" || value = "json"
  | .trigger => true

end Parameter

namespace Switch

/-- The switch with a name at a level. -/
def ofName? (level : Level) (name : String) : Option Switch :=
  match name, level with
  | "verbose", _ => some .verbose
  | "help", _ => some .help
  | "version", .top => some .version
  | "auto-approve", .run => some .autoApprove
  | "stub-actions", .run => some .stubActions
  | _, _ => none

/-- The switch with a letter at a level. -/
def ofLetter? (level : Level) (letter : Char) : Option Switch :=
  match letter, level with
  | 'v', _ => some .verbose
  | 'h', _ => some .help
  | 'V', .top => some .version
  | _, _ => none

end Switch

/-- What has been read of the arguments. -/
structure Reading where
  /-- The part that is being read. -/
  level : Level
  /-- The parameters that have been given, with the level at which they stand, the last first. -/
  parameters : List (Level × Parameter × String)
  /-- The switches that have been given. -/
  switches : List Switch
  /-- The operands in reverse. -/
  operands : List String
  /-- The parameter whose value comes next. -/
  awaiting : Option Parameter
  /-- Two dashes have been read. -/
  operandsOnly : Bool

namespace Reading

/-- Nothing has been read yet. -/
def start : Reading := ⟨.top, [], [], [], none, false⟩

/-- A parameter has been given at the current level. -/
def isGiven (reading : Reading) (parameter : Parameter) : Bool :=
  reading.parameters.any fun given => given.1 = reading.level && given.2.1 = parameter

/-- Take a value for a parameter, which may be given once at each level. -/
def give (reading : Reading) (parameter : Parameter) (value : String) : Except Stop Reading :=
  if reading.isGiven parameter || !parameter.accepts value then .error .misuse
  else .ok { reading with
    parameters := (reading.level, parameter, value) :: reading.parameters
    awaiting := none }

/-- Turn a switch on. Only the one for more output may be repeated. -/
def turnOn (reading : Reading) (switch : Switch) : Except Stop Reading :=
  match switch with
  | .help => .error .help
  | .version => .error .version
  | .verbose => .ok reading
  | switch =>
    if switch ∈ reading.switches then .error .misuse
    else .ok { reading with switches := switch :: reading.switches }

/-- Read an operand. Before the command it is the command. -/
def operand (reading : Reading) (value : String) : Except Stop Reading :=
  match reading.level with
  | .top =>
    if reading.operandsOnly then .error .misuse
    else
      match value with
      | "validate" => .ok { reading with level := .validate }
      | "run" => .ok { reading with level := .run }
      | "help" => .ok { reading with level := .help }
      | _ => .error .misuse
  | .validate =>
    if value = "" then .error .misuse
    else .ok { reading with operands := value :: reading.operands }
  | .run =>
    if reading.operands.isEmpty then .ok { reading with operands := [value] }
    else .error .misuse
  | .help =>
    if reading.operands.isEmpty && value ∈ ["validate", "run", "help"] then
      .ok { reading with operands := [value] }
    else .error .misuse

/-- Read an option that begins with two dashes. -/
def longOption (reading : Reading) (name : String) (value : Option String) :
    Except Stop Reading :=
  match Parameter.ofName? reading.level name, value with
  | some parameter, some value => reading.give parameter value
  | some parameter, none => .ok { reading with awaiting := some parameter }
  | none, some _ => .error .misuse
  | none, none =>
    match Switch.ofName? reading.level name with
    | some switch => reading.turnOn switch
    | none => .error .misuse

/-- Read letters behind one dash. -/
def shortOptions (reading : Reading) (letters : List Char) : Except Stop Reading :=
  letters.foldlM (fun reading letter =>
    match Switch.ofLetter? reading.level letter with
    | some switch => reading.turnOn switch
    | none => .error .misuse) reading

/-- The name and the value behind an equals sign, if there is one. -/
def splitValue (option : List Char) : String × Option String :=
  let name := String.ofList (option.takeWhile (· ≠ '='))
  match option.dropWhile (· ≠ '=') with
  | [] => (name, none)
  | _ :: value => (name, some (String.ofList value))

/-- Read an argument. -/
def step (reading : Reading) (argument : String) : Except Stop Reading :=
  let asOperand : Except Stop Reading :=
    match reading.awaiting with
    | some parameter => reading.give parameter argument
    | none => reading.operand argument
  if reading.operandsOnly || reading.level = .help then asOperand
  else
    match argument.toList, reading.awaiting with
    | '-' :: _ :: _, some _ => .error .misuse
    | ['-', '-'], none => .ok { reading with operandsOnly := true }
    | '-' :: '-' :: option, none =>
      let (name, value) := splitValue option
      reading.longOption name value
    | '-' :: letter :: letters, none => reading.shortOptions (letter :: letters)
    | _, _ => asOperand

/-- The value of a parameter; the one that was given last counts. -/
def value? (reading : Reading) (parameter : Parameter) : Option String :=
  (reading.parameters.find? fun given => given.2.1 = parameter).map fun given => given.2.2

/-- Where the payload of the trigger comes from; it must not come from two places. -/
def triggerSource (reading : Reading) : Except Stop TriggerSource :=
  match reading.value? .trigger, reading.value? .triggerFile with
  | some _, some _ => .error .misuse
  | some text, none => .ok (.inline text)
  | none, some path => .ok (.file path)
  | none, none => .ok .absent

/-- The command at the end of the arguments. -/
def command (reading : Reading) : Except Stop Command :=
  match reading.level, reading.operands with
  | .validate, file :: files => .ok (.validate (file :: files).reverse)
  | .run, [workflow] => do
    let trigger ← reading.triggerSource
    return .run {
      workflow, trigger
      autoApprove := .autoApprove ∈ reading.switches
      stubActions := .stubActions ∈ reading.switches }
  | .help, _ => .error .help
  | _, _ => .error .misuse

/-- What the arguments ask for. -/
def finish (reading : Reading) : Except Stop Invocation := do
  if reading.awaiting.isSome then throw .misuse
  return { config := reading.value? .config, command := ← reading.command }

end Reading

/-- What arguments ask for. -/
def Invocation.ofArguments (arguments : List String) : Except Stop Invocation := do
  (← arguments.foldlM Reading.step .start).finish

/-- The code with which a program ends that has nothing to do. -/
def Stop.exitCode : Stop → Nat
  | .misuse => 2
  | .help | .version => 0

end Workflow.CommandLine
