import Std.Time.DateTime.Timestamp
import Workflow.CommandLine
import Workflow.Run.Identifier
import Workflow.Value.Pretty

/-!
# The program

The program reads the files at which its arguments look, begins what they ask for, and gives a
dialogue what it needs: lines from the standard input, and time.
-/
namespace Workflow.CommandLine

/-- What is shown to those who ask for help or misuse the arguments. -/
def usage : String :=
  "Usage: workflow [--config FILE] [--log-format text|json] [--log-dir DIR] [-v] COMMAND\n\n" ++
  "  validate FILE...\n" ++
  "  run WORKFLOW [--trigger JSON | --trigger-file FILE] [--auto-approve] [--stub-actions]\n"

/-- What is shown to those who ask for the version. -/
def versionLine : String := "workflow 0.1.0"

/-- Take the file at a path over onto a disk. -/
def takeFile (disk : Disk) (path : String) : IO Disk := do
  let bytes ← IO.FS.readBinFile path
  return disk.place path (.file (String.fromUTF8? bytes))

/-- Take what lies at a path over onto a disk: a file, or a directory with its definitions. -/
def takePath (disk : Disk) (path : String) : IO Disk := do
  try
    let place ← IO.FS.realPath path
    if ← place.isDir then
      let mut disk := disk.makeDirectory path
      for entry in ← place.readDir do
        if isDefinitionName entry.fileName then
          let inner := Disk.inside path entry.fileName
          disk ←
            if ← (← IO.FS.realPath inner).isDir then pure (disk.makeDirectory inner)
            else takeFile disk inner
      return disk
    else takeFile disk path
  catch _ => return disk

/-- Take what lies at a path and the directories on the way over onto a disk. -/
def takeWay (disk : Disk) (path : String) : IO Disk := do
  let parts := Disk.parts path
  let mut disk := disk
  for length in List.range parts.length do
    let way := "/".intercalate (parts.take length)
    if way ≠ "" then
      try
        if ← (← IO.FS.realPath way).isDir then disk := disk.makeDirectory way
      catch _ => pure ()
  takePath disk path

/-- A disk with everything at which arguments look. -/
def diskFor (arguments : List String) : IO Disk := do
  let current := (Disk.parts (← IO.currentDir).toString).filter (· ≠ "")
  match Invocation.ofArguments arguments with
  | .error _ => return .empty current
  | .ok invocation =>
    let disk ← invocation.paths.foldlM takeWay (.empty current)
    (invocation.directories disk).foldlM takeWay disk

/-- Read a line; there is none at the end of the input or where it is no text. -/
def readLine : IO (Option String) := do
  try
    let line ← (← IO.getStdin).getLine
    return if line.isEmpty then none else some line
  catch _ => return none

/-- Show what has been said and warned of in a dialogue since the last time. -/
def showNews (dialogue : Dialogue) : IO Dialogue := do
  for utterance in dialogue.said.reverse do
    IO.eprintln utterance.text
  for warning in dialogue.host.warnings.reverse do
    IO.eprintln warning.line
  return { dialogue with said := [], host := { dialogue.host with warnings := [] } }

/-- Give a dialogue what it needs until the run has ended. -/
partial def converse (dialogue : Dialogue) : IO Ending := do
  let (dialogue, need) := dialogue.proceed
  let dialogue ← showNews dialogue
  match need with
  | .nothing result => return .ofResult result
  | .line =>
    IO.eprint linePrompt
    converse (dialogue.hear (← readLine))
  | .time instant =>
    IO.sleep (instant - dialogue.host.now).toUInt32
    converse (dialogue.reach instant)
  | .never =>
    IO.sleep 1000
    converse dialogue

/-- Show how a command ended. -/
def showEnding : Ending → IO Unit
  | .stopped .misuse => IO.eprint usage
  | .stopped .help => IO.print usage
  | .stopped .version => IO.println versionLine
  | .failed failure => IO.eprintln failure.line
  | .validated findings => findings.forM fun finding => IO.println (findingLine finding.1 finding.2)
  | .finished report => IO.println report.toValue.pretty

/-- Do what arguments ask for. -/
def perform (arguments : List String) : IO Ending := do
  let disk ← diskFor arguments
  let milliseconds := (← Std.Time.Timestamp.now).toMillisecondsSinceUnixEpoch.toInt.toNat
  let first ← IO.rand 0 (Nat.pow 2 12 - 1)
  let second ← IO.rand 0 (Nat.pow 2 62 - 1)
  let identifier := Identifier.fresh milliseconds first second
  match begin arguments disk identifier with
  | .stopped stop => return .stopped stop
  | .failed failure => return .failed failure
  | .validated findings => return .validated findings
  | .running dialogue => converse dialogue

end Workflow.CommandLine

/-- Do what the arguments of the program ask for; the code tells whether it succeeded. -/
def main (arguments : List String) : IO UInt32 := do
  let ending ← Workflow.CommandLine.perform arguments
  Workflow.CommandLine.showEnding ending
  return ending.exitCode.toUInt32
