import Workflow.ConfigError
import Workflow.Definition
import Workflow.Table

/-!
# The table of definitions

Definitions are registered under their names. A run keeps the definition with which it began,
whatever happens to the table afterwards.
-/
namespace Workflow

/-- The table of definitions. -/
abbrev DefinitionRegistry := Table Definition

namespace DefinitionRegistry

/-- Register a definition under a name that is free. -/
def insert (registry : DefinitionRegistry) (definition : Definition) :
    Except ConfigError DefinitionRegistry :=
  if Table.contains definition.name registry then .error (.duplicateWorkflow definition.name)
  else .ok (Table.set definition.name definition registry)

/-- Register a definition in place of the one that has its name. -/
def upsert (registry : DefinitionRegistry) (definition : Definition) : DefinitionRegistry :=
  Table.set definition.name definition registry

end DefinitionRegistry

end Workflow
