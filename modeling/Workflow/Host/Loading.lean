import Workflow.Host

/-!
# Loading on a host

The library of a host is filled from texts and from the files of its disk.
-/
namespace Workflow

namespace Host

/-- Change the library, unless that is refused. -/
def change (host : Host) (result : Except ConfigError Library) : Except ConfigError Unit × Host :=
  match result with
  | .ok library => (.ok (), { host with library })
  | .error error => (.error error, host)

/-- Change the library, unless that is refused, and give a name. -/
def changeNamed (host : Host) (result : Except ConfigError (String × Library)) :
    Except ConfigError String × Host :=
  match result with
  | .ok (name, library) => (.ok name, { host with library })
  | .error error => (.error error, host)

/-- Register an action. -/
def register (host : Host) (name : String) (action : Action) : Except ConfigError Unit × Host :=
  host.change (host.library.register name action)

/-- Load the definition that a text describes. -/
def loadText (host : Host) (text : String) : Except ConfigError String × Host :=
  host.changeNamed (host.library.loadText text)

/-- Load the definition that a file describes. -/
def loadFile (host : Host) (path : String) : Except ConfigError String × Host :=
  host.changeNamed (host.library.loadFile host.disk path)

/-- Load the definitions of the directory that the settings of an engine name. -/
def loadDirectory (host : Host) (engine : Nat) : Except ConfigError (List String) × Host :=
  let directory := (host.engine engine).settings.workflowsDirectory
  match host.library.loadDirectory host.disk directory with
  | .unset => (.ok [], host)
  | .missing => (.ok [], host.warn .missingDirectory)
  | .loaded library names none => (.ok names, { host with library })
  | .loaded library _ (some error) => (.error error, { host with library })

/-- Load the definition that a text describes in place of the one that has its name. -/
def reload (host : Host) (text : String) : Except ConfigError Unit × Host :=
  host.change do host.library.reload (← Definition.ofText text)

/-- Register the definition that a text describes, whatever actions it refers to. -/
def insert (host : Host) (text : String) : Except ConfigError String × Host :=
  host.changeNamed do
    let definition ← Definition.ofText text
    return (definition.name, ← host.library.insert definition)

/-- Register the definition that a text describes in place of the one that has its name, whatever
actions it refers to; the one that it replaced is given. -/
def upsert (host : Host) (text : String) : Except ConfigError (Option Definition) × Host :=
  match Definition.ofText text with
  | .ok definition =>
    (.ok (host.library.find? definition.name),
      { host with library := host.library.upsert definition })
  | .error error => (.error error, host)

/-- Take a definition out of the library; it is given. -/
def remove (host : Host) (name : String) : Option Definition × Host :=
  (host.library.find? name, { host with library := host.library.remove name })

/-- Write a definition of the library into a file, if there is such a one. -/
def save (host : Host) (name path : String) : Option (Except ConfigError Unit) × Host :=
  match host.library.find? name with
  | none => (none, host)
  | some definition =>
    match definition.save host.disk path with
    | .ok disk => (some (.ok ()), { host with disk })
    | .error error => (some (.error error), host)

end Host

end Workflow
