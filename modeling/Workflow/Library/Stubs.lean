import Workflow.Library

/-!
# Stubs

A definition can be tried before its actions exist: each action that is not registered is
registered as one that gives its input back.
-/
namespace Workflow

namespace Library

/-- Register a stub for each name of an action that is not registered, in order; the names for
which that was done are given. -/
def registerStubsFor (library : Library) : List String → Except ConfigError (List String × Library)
  | [] => .ok ([], library)
  | action :: rest =>
    if library.actions.contains action then library.registerStubsFor rest
    else do
      let library ← library.register action .echo
      let (stubs, library) ← library.registerStubsFor rest
      return (action :: stubs, library)

/-- Register stubs for the actions of definitions. -/
def registerStubs (library : Library) (definitions : List Definition) :
    Except ConfigError (List String × Library) :=
  library.registerStubsFor (definitions.flatMap fun definition =>
    definition.actionUses.map Prod.snd)

end Library

end Workflow
