import Workflow.CommandLine.Arguments
import Workflow.CommandLine.Dialogue
import Workflow.CommandLine.Failure
import Workflow.Library.Stubs

/-!
# The command line

The settings are read first. `validate` checks each file by itself. `run` reads the payload of the
trigger, loads the definition at a path or else those of the directory that the settings name, and
begins a run of the workflow.
-/
namespace Workflow.CommandLine

/-- What a file was found to be. -/
abbrev Finding := Except ConfigError Definition

/-- The line that tells what a file was found to be. -/
def findingLine (path : String) : Finding → String
  | .ok definition =>
    "OK  " ++ path ++ " (" ++ definition.name ++ ": " ++ toString definition.steps.length ++
      " steps)"
  | .error error => "NG  " ++ path ++ ": " ++ error.message

/-- A finding is no error. -/
def Finding.isGood : Finding → Bool
  | .ok _ => true
  | .error _ => false

/-- How a command begins. -/
inductive Beginning where
  | stopped (stop : Stop)
  | failed (failure : Failure)
  /-- Files have been checked. -/
  | validated (findings : List (String × Finding))
  /-- A workflow is running. -/
  | running (dialogue : Dialogue)

/-- The settings that an invocation names. -/
def Invocation.settings (invocation : Invocation) (disk : Disk) : Except Failure Settings :=
  match invocation.config with
  | none => .ok .usual
  | some path => (Settings.ofFile disk path).mapError .config

/-- The payload of the trigger. -/
def TriggerSource.payload (source : TriggerSource) (disk : Disk) : Except Failure Value := do
  let text ← match source with
    | .absent => return .record []
    | .inline text => pure text
    | .file path => (disk.read path).mapError .triggerFile
  match Value.ofText? text with
  | some value => return value
  | none => throw .triggerText

/-- Register stubs if they are wanted. -/
def withStubs (wanted : Bool) (library : Library)
    (definitions : Except ConfigError (List Definition)) : Except ConfigError Library :=
  if wanted then do
    let (_, library) ← library.registerStubs (← definitions)
    return library
  else .ok library

/-- The library for a run and the name of the workflow. -/
def RunOptions.library (options : RunOptions) (settings : Settings) (disk : Disk) :
    Except ConfigError (Library × String) := do
  if disk.isFile options.workflow then
    let definition ← Definition.ofFile disk options.workflow
    let library ← withStubs options.stubActions .builtIn (.ok [definition])
    return (← library.load definition, definition.name)
  else
    let directory := settings.workflowsDirectory
    let library ← withStubs options.stubActions .builtIn (Definition.ofDirectory disk directory)
    match library.loadDirectory disk directory with
    | .unset | .missing => return (library, options.workflow)
    | .loaded library _ none => return (library, options.workflow)
    | .loaded _ _ (some error) => throw error

/-- Begin a run. -/
def RunOptions.begin (options : RunOptions) (settings : Settings) (disk : Disk)
    (execution : String) : Except Failure Dialogue := do
  let trigger ← options.trigger.payload disk
  let (library, workflow) ← (options.library settings disk).mapError .config
  let host := Host.new library disk [.new settings []]
  return .begin host workflow execution trigger options.autoApprove

/-- Begin what an invocation asks for. The identifier is for the run. -/
def Invocation.begin (invocation : Invocation) (disk : Disk) (execution : String) :
    Except Failure Beginning := do
  let settings ← invocation.settings disk
  match invocation.command with
  | .validate files => return .validated (files.map fun path => (path, Definition.ofFile disk path))
  | .run options => return .running (← options.begin settings disk execution)

/-- The paths at which an invocation looks, those that its settings name aside. -/
def Invocation.paths (invocation : Invocation) : List String :=
  let operands := match invocation.command with
    | .validate files => files
    | .run options =>
      match options.trigger with
      | .file path => [options.workflow, path]
      | _ => [options.workflow]
  invocation.config.toList ++ operands

/-- The directories that the settings of an invocation name. -/
def Invocation.directories (invocation : Invocation) (disk : Disk) : List String :=
  match invocation.settings disk with
  | .ok settings => settings.workflowsDirectory.toList
  | .error _ => []

/-- Begin what arguments ask for. -/
def begin (arguments : List String) (disk : Disk) (execution : String) : Beginning :=
  match Invocation.ofArguments arguments with
  | .error stop => .stopped stop
  | .ok invocation =>
    match invocation.begin disk execution with
    | .ok beginning => beginning
    | .error failure => .failed failure

/-- How a command ends. -/
inductive Ending where
  | stopped (stop : Stop)
  | failed (failure : Failure)
  /-- Files have been checked. -/
  | validated (findings : List (String × Finding))
  /-- A run has ended. -/
  | finished (report : Report)

namespace Ending

/-- The ending of a run with a result. -/
def ofResult : Except EngineError Report → Ending
  | .ok report => .finished report
  | .error error => .failed (.engine error)

/-- The code with which the program ends. -/
def exitCode : Ending → Nat
  | .stopped stop => stop.exitCode
  | .failed _ => 1
  | .validated findings => if findings.all fun finding => Finding.isGood finding.2 then 0 else 1
  | .finished report => if report.isSuccess then 0 else 1

end Ending

end Workflow.CommandLine
