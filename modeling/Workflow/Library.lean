import Workflow.Action.Registry
import Workflow.Definition.Document
import Workflow.Definition.Registry

/-!
# Libraries

A library holds the actions and the definitions that are registered. A definition is loaded only
if every action it refers to is registered, and only under a name that is free; reloading takes the
place of a definition of the same name. What is refused changes nothing.
-/
namespace Workflow

/-- The actions and definitions that are registered. -/
structure Library where
  actions : ActionRegistry
  definitions : DefinitionRegistry

namespace Library

/-- A library with the actions that are built in. -/
def builtIn : Library := ⟨.builtIn, []⟩

/-- A library without actions. -/
def empty : Library := ⟨.empty, []⟩

/-- Register an action. -/
def register (library : Library) (name : String) (action : Action) :
    Except ConfigError Library := do
  return { library with actions := ← library.actions.register name action }

/-- The first action of a definition that is not registered, with the name of its step. -/
def unknownAction? (library : Library) (definition : Definition) : Option (String × String) :=
  definition.actionUses.find? fun entry => !library.actions.contains entry.2

/-- Refuse a definition that refers to an action that is not registered. -/
def ensureActions (library : Library) (definition : Definition) : Except ConfigError Unit :=
  match library.unknownAction? definition with
  | some (step, action) => .error (.unknownAction definition.name step action)
  | none => .ok ()

/-- Register a definition under a name that is free, whatever actions it refers to. -/
def insert (library : Library) (definition : Definition) : Except ConfigError Library := do
  return { library with definitions := ← library.definitions.insert definition }

/-- Register a definition in place of the one that has its name, whatever actions it refers to. -/
def upsert (library : Library) (definition : Definition) : Library :=
  { library with definitions := library.definitions.upsert definition }

/-- Take the definition with a name out of the library. -/
def remove (library : Library) (name : String) : Library :=
  { library with definitions := Table.erase name library.definitions }

/-- The definition with a name. -/
def find? (library : Library) (name : String) : Option Definition :=
  Table.get? name library.definitions

/-- Load a definition. -/
def load (library : Library) (definition : Definition) : Except ConfigError Library := do
  library.ensureActions definition
  library.insert definition

/-- Load a definition in place of the one that has its name. -/
def reload (library : Library) (definition : Definition) : Except ConfigError Library := do
  library.ensureActions definition
  return library.upsert definition

/-- Load the definition that a text describes, and give its name. -/
def loadText (library : Library) (text : String) : Except ConfigError (String × Library) := do
  let definition ← Definition.ofText text
  return (definition.name, ← library.load definition)

end Library

end Workflow
