import Workflow.Disk
import Workflow.Library
import Workflow.Settings

/-!
# Libraries from files

The definitions of a directory are the files directly in it whose names end in the extension of
definitions. They are loaded in ascending order of names up to the first one that is refused; those
before it stay loaded.
-/
namespace Workflow

/-- The definition that a file describes. -/
def Definition.ofFile (disk : Disk) (path : String) : Except ConfigError Definition := do
  Definition.ofText (← (disk.read path).mapError .file)

/-- Write a definition into a file. -/
def Definition.save (definition : Definition) (disk : Disk) (path : String) :
    Except ConfigError Disk := do
  (disk.write path (← definition.text)).mapError .file

/-- The settings that a file describes. -/
def Settings.ofFile (disk : Disk) (path : String) : Except ConfigError Settings := do
  Settings.ofText (← (disk.read path).mapError .file)

/-- A name inside a directory as a path. -/
def Disk.inside (directory name : String) : String := directory ++ "/" ++ name

namespace Library

/-- Load the definition that a file describes, and give its name. -/
def loadFile (library : Library) (disk : Disk) (path : String) :
    Except ConfigError (String × Library) := do
  let definition ← Definition.ofFile disk path
  return (definition.name, ← library.load definition)

/-- Load files in order up to the first one that is refused: the library afterwards, the names of
the loaded definitions and the error. -/
def loadFiles (library : Library) (disk : Disk) :
    List String → Library × List String × Option ConfigError
  | [] => (library, [], none)
  | path :: rest =>
    match library.loadFile disk path with
    | .error error => (library, [], some error)
    | .ok (name, library) =>
      let (library, names, error) := library.loadFiles disk rest
      (library, name :: names, error)

/-- What came of loading a directory. -/
inductive DirectoryLoad where
  /-- No directory is set. -/
  | unset
  /-- The directory does not exist. -/
  | missing
  /-- Its files have been loaded in order up to the first one that is refused. -/
  | loaded (library : Library) (names : List String) (error : Option ConfigError)

/-- Load the definitions of a directory. -/
def loadDirectory (library : Library) (disk : Disk) (directory : Option String) :
    DirectoryLoad :=
  match directory with
  | none => .unset
  | some directory =>
    match disk.list directory with
    | .error _ => .missing
    | .ok entries =>
      let paths := entries.definitionFiles.map (Disk.inside directory)
      let (library, names, error) := library.loadFiles disk paths
      .loaded library names error

end Library

/-- All definitions of a directory; none if it does not exist. Directories with the extension of
definitions count as files that cannot be read. -/
def Definition.ofDirectory (disk : Disk) (directory : Option String) :
    Except ConfigError (List Definition) :=
  match directory with
  | none => .ok []
  | some directory =>
    match disk.list directory with
    | .error _ => .ok []
    | .ok entries =>
      entries.definitionNames.mapM fun name => Definition.ofFile disk (Disk.inside directory name)

end Workflow
