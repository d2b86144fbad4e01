import Workflow.Host.Loading
import Workflow.Proofs.Definition.Addresses

/-!
# Definitions admitted to a library

A definition is admitted if every action that one of its steps names is registered, at whatever
depth the step lies and in whichever list, and if its name is not taken. Then its entry in the table
of definitions changes and nothing else does. A definition that is refused leaves the host as it
was, and the error tells of the step with the least address that names an action which is not
registered, or else of the name. `Host.Admits` says this of a request, `Host.loading_admits` of the
requests that load a definition and of those that reload it, for which no name is taken.
-/
namespace Workflow

/-- A step names an action that is not registered. -/
def Library.Lacks (library : Library) (step : Step) : Prop :=
  ∃ action, step.action = some action ∧ library.actions.contains action = false

/-- Every action that a step of a definition names is registered. -/
def Library.Knows (library : Library) (definition : Definition) : Prop :=
  ∀ address step action, definition.stepAt? address = some step → step.action = some action →
    library.actions.contains action = true

/-- An error tells of the first step that names an action which is not registered. -/
def Library.TellsOfAction (library : Library) (definition : Definition) (error : ConfigError) :
    Prop :=
  ∃ step action, IsFirst definition.stepAt? library.Lacks step ∧ step.action = some action ∧
    error = .unknownAction definition.name step.name action

/-- A library holds a definition and is otherwise as it was. -/
structure Library.Enters (library : Library) (definition : Definition) (later : Library) :
    Prop where
  actions : later.actions = library.actions
  entry : later.find? definition.name = some definition
  others : ∀ name ≠ definition.name, later.find? name = library.find? name

/-- What comes of a request to enter a definition into the library of a host, which is answered
unless the name of the definition is taken. -/
structure Host.Admits {Answer : Type} (host : Host) (definition : Definition) (taken : Prop)
    (answer : Answer) (result : Except ConfigError Answer × Host) : Prop where
  /-- It is admitted exactly if its actions are registered and its name is not taken. -/
  admitted : result.1 = .ok answer ↔ host.library.Knows definition ∧ ¬taken
  /-- Otherwise there is an error. -/
  settled : result.1 = .ok answer ∨ ∃ error, result.1 = .error error
  entered : result.1 = .ok answer →
    ∃ later, result.2 = { host with library := later } ∧ host.library.Enters definition later
  /-- The host is as it was, and an action is complained of before the name. -/
  refused : ∀ error, result.1 = .error error →
    result.2 = host ∧
      (host.library.TellsOfAction definition error ∨
        host.library.Knows definition ∧ taken ∧ error = .duplicateWorkflow definition.name)

/-! ## The check of the actions -/

namespace Library

/-- The use of an action by a step is one of an action that is not registered. -/
def lacks (library : Library) (step : Step) : Bool :=
  (step.action.map (step.name, ·)).any fun use => !library.actions.contains use.2

/-- The test for an action that is lacking tests for it. -/
theorem lacks_eq_true (library : Library) (step : Step) :
    library.lacks step = true ↔ library.Lacks step := by
  rw [lacks, Lacks]
  cases step.action <;> simp

/-- The check looks for the first step that lacks its action. -/
theorem unknownAction?_eq (library : Library) (definition : Definition) :
    library.unknownAction? definition =
      (definition.allSteps.find? library.lacks).bind fun step =>
        step.action.map (step.name, ·) := by
  rw [unknownAction?, Definition.actionUses, List.find?_filterMap]
  rfl

/-- All actions are known exactly if no step lacks its action. -/
theorem knows_iff {library : Library} {definition : Definition} :
    library.Knows definition ↔ ∀ step ∈ definition.allSteps, ¬library.Lacks step := by
  constructor
  · rintro knows step member ⟨action, named, missing⟩
    obtain ⟨address, found⟩ := Definition.mem_allSteps_iff.mp member
    have known := knows address step action found named
    rw [missing] at known
    cases known
  · intro clear address step action found named
    have member := Definition.mem_allSteps_iff.mpr ⟨address, found⟩
    by_contra unknown
    exact clear step member ⟨action, named, by simpa using unknown⟩

/-- A definition passes the check if its actions are known; otherwise the error tells of the first
step that lacks its action. -/
theorem ensureActions_spec (library : Library) (definition : Definition) :
    (library.Knows definition ∧ library.ensureActions definition = .ok ()) ∨
      (¬library.Knows definition ∧ ∃ error, library.ensureActions definition = .error error ∧
        library.TellsOfAction definition error) := by
  rw [ensureActions, unknownAction?_eq]
  cases find : definition.allSteps.find? library.lacks with
  | none =>
    have clear : ∀ step ∈ definition.allSteps, ¬library.Lacks step := fun step member =>
      mt (library.lacks_eq_true step).mpr (List.find?_eq_none.mp find step member)
    exact .inl ⟨knows_iff.mpr clear, rfl⟩
  | some step =>
    have lacks : library.Lacks step := (library.lacks_eq_true step).mp (List.find?_some find)
    have member : step ∈ definition.allSteps := List.mem_of_find?_eq_some find
    have first : IsFirst definition.stepAt? library.Lacks step := by
      have least := Definition.first_of_find? find
      rwa [show (library.lacks · = true) = library.Lacks from
        funext fun step => propext (library.lacks_eq_true step)] at least
    obtain ⟨action, named, -⟩ := id lacks
    refine .inr ⟨fun knows => knows_iff.mp knows step member lacks, ?_⟩
    exact ⟨.unknownAction definition.name step.name action, by simp [named],
      step, action, first, named, rfl⟩

/-! ## The entry -/

/-- Entering a definition changes the entry under its name and nothing else. -/
theorem enters_upsert (library : Library) (definition : Definition) :
    library.Enters definition (library.upsert definition) where
  actions := rfl
  entry := Table.get?_set_self _ _ _
  others _ differ := Table.get?_set_of_ne differ _ _

/-- The check of the actions, then that of the name, then the entry. -/
def accept (library : Library) (definition : Definition) (taken : Bool) :
    Except ConfigError Library := do
  library.ensureActions definition
  if taken then .error (.duplicateWorkflow definition.name) else .ok (library.upsert definition)

/-- A definition is loaded under a name that is not in the table. -/
theorem load_eq (library : Library) (definition : Definition) :
    library.load definition =
      library.accept definition (library.find? definition.name).isSome := by
  have inserted : library.insert definition =
      if (library.find? definition.name).isSome then .error (.duplicateWorkflow definition.name)
      else .ok (library.upsert definition) := by
    rw [insert, DefinitionRegistry.insert, Table.contains, find?]
    split <;> rfl
  rw [load, accept, inserted]

/-- A definition is loaded again whatever is in the table. -/
theorem reload_eq (library : Library) (definition : Definition) :
    library.reload definition = library.accept definition false := rfl

/-- A definition whose actions are known and whose name is not taken is entered; otherwise the error
tells of an action, or of the name if all actions are known. -/
theorem accept_spec (library : Library) (definition : Definition) (taken : Bool) :
    (library.Knows definition ∧ taken = false ∧
        library.accept definition taken = .ok (library.upsert definition)) ∨
      (¬(library.Knows definition ∧ taken = false) ∧
        ∃ error, library.accept definition taken = .error error ∧
          (library.TellsOfAction definition error ∨
            library.Knows definition ∧ taken = true ∧
              error = .duplicateWorkflow definition.name)) := by
  rcases library.ensureActions_spec definition with
    ⟨knows, passed⟩ | ⟨unknown, error, failed, tells⟩
  · cases taken with
    | false =>
      refine .inl ⟨knows, rfl, ?_⟩
      rw [accept, passed]
      rfl
    | true =>
      refine .inr ⟨fun free => Bool.noConfusion free.2, .duplicateWorkflow definition.name, ?_,
        .inr ⟨knows, rfl, rfl⟩⟩
      rw [accept, passed]
      rfl
  · refine .inr ⟨fun free => unknown free.1, error, ?_, .inl tells⟩
    rw [accept, failed]
    rfl

end Library

/-! ## Requests to a host -/

namespace Host

/-- What comes of a request if the library is changed as it admits a definition. -/
def accept {Answer : Type} (host : Host) (definition : Definition) (taken : Bool)
    (answer : Answer) : Except ConfigError Answer × Host :=
  match host.library.accept definition taken with
  | .ok library => (.ok answer, { host with library })
  | .error error => (.error error, host)

/-- What accepting a definition comes to admits it unless its name is taken. -/
theorem admits_accept {Answer : Type} (host : Host) (definition : Definition) (taken : Bool)
    (answer : Answer) :
    host.Admits definition (taken = true) answer (host.accept definition taken answer) := by
  rcases host.library.accept_spec definition taken with
    ⟨knows, free, entered⟩ | ⟨blocked, error, failed, cause⟩
  · have result : host.accept definition taken answer =
        (.ok answer, { host with library := host.library.upsert definition }) := by
      rw [accept, entered]
    rw [result]
    exact {
      admitted := ⟨fun _ => ⟨knows, by simp [free]⟩, fun _ => rfl⟩
      settled := .inl rfl
      entered := fun _ => ⟨_, rfl, host.library.enters_upsert definition⟩
      refused := fun _ impossible => by cases impossible }
  · have result : host.accept definition taken answer = (.error error, host) := by
      rw [accept, failed]
    rw [result]
    refine { admitted := ⟨fun impossible => ?_, fun free => ?_⟩, settled := .inr ⟨error, rfl⟩,
             entered := fun impossible => ?_, refused := fun other same => ?_ }
    · cases impossible
    · exact absurd ⟨free.1, Bool.eq_false_iff.mpr free.2⟩ blocked
    · cases impossible
    · cases same
      exact ⟨rfl, cause⟩

/-- A change of the library that accepts a definition is accepted by the host. -/
theorem change_accept (host : Host) (definition : Definition) (taken : Bool) :
    host.change (host.library.accept definition taken) = host.accept definition taken () := by
  rw [accept]
  cases host.library.accept definition taken <;> rfl

/-- A change that tells the name of the definition is accepted by the host and answered with the
name. -/
theorem changeNamed_accept (host : Host) (definition : Definition) (taken : Bool) :
    host.changeNamed ((host.library.accept definition taken).map (definition.name, ·)) =
      host.accept definition taken definition.name := by
  rw [accept]
  cases host.library.accept definition taken <;> rfl

/-- Whatever is registered on a host, and whatever definition a text describes, the definition is
loaded if its actions are known and no definition has its name, and reloaded if its actions are
known; otherwise nothing changes. It makes no difference whether the definition, its text or a file
that holds its text is handed over. -/
theorem loading_admits (host : Host) {text : String} {definition : Definition}
    (read : Definition.ofText text = .ok definition) :
    host.Admits definition (host.library.find? definition.name ≠ none) ()
        (host.change (host.library.load definition)) ∧
      host.Admits definition (host.library.find? definition.name ≠ none) definition.name
        (host.loadText text) ∧
      (∀ path, host.disk.read path = .ok text →
        host.Admits definition (host.library.find? definition.name ≠ none) definition.name
          (host.loadFile path)) ∧
      host.Admits definition False () (host.change (host.library.reload definition)) ∧
      host.Admits definition False () (host.reload text) := by
  have taken : (host.library.find? definition.name ≠ none) =
      ((host.library.find? definition.name).isSome = true) :=
    propext Option.isSome_iff_ne_none.symm
  have never : False = (false = true) := by simp
  have loaded : host.library.loadText text =
      (host.library.load definition).map (definition.name, ·) := by
    rw [Library.loadText, read]
    rfl
  rw [taken, never]
  refine ⟨?_, ?_, fun path holds => ?_, ?_, ?_⟩
  · rw [host.library.load_eq, change_accept]
    exact host.admits_accept definition _ ()
  · rw [loadText, loaded, host.library.load_eq, changeNamed_accept]
    exact host.admits_accept definition _ definition.name
  · have filed : host.library.loadFile host.disk path = host.library.loadText text := by
      rw [Library.loadFile, Definition.ofFile, holds]
      rfl
    rw [loadFile, filed, loaded, host.library.load_eq, changeNamed_accept]
    exact host.admits_accept definition _ definition.name
  · rw [host.library.reload_eq, change_accept]
    exact host.admits_accept definition false ()
  · have again : (do host.library.reload (← Definition.ofText text)) =
        host.library.reload definition := by
      rw [read]
      rfl
    rw [reload, again, host.library.reload_eq, change_accept]
    exact host.admits_accept definition false ()

/-- A definition with two actions that are not registered: one inside a group after a failure, and
one at the end. -/
def tidyingText : String := "[workflow]
name = \"tidying\"

[[on_complete]]
name = \"tells\"
type = \"human_in_loop\"
action = \"mail\"

[[on_error]]
name = \"cleans\"
type = \"parallel\"

[[on_error.steps]]
name = \"empties\"
action = \"echo\"

[[on_error.steps]]
name = \"sweeps\"
action = \"sweep\"

[[steps]]
name = \"greets\"
action = \"echo\"
"

/-- What the text describes. -/
def tidying : Definition where
  name := "tidying"
  description := none
  version := none
  trigger := .manual
  steps := [⟨"greets", .action, some "echo", none, none, none, none, none, none, []⟩]
  onError := [⟨"cleans", .parallel, none, none, none, none, none, none, none,
    [⟨"empties", .action, some "echo", none, none, none, none, none, none, []⟩,
      ⟨"sweeps", .action, some "sweep", none, none, none, none, none, none, []⟩]⟩]
  onComplete := [⟨"tells", .humanInLoop, some "mail", none, none, none, none, none, none, []⟩]

-- The characters of the text are one term, as deep as the text is long.
set_option maxRecDepth 2000 in
/-- The tidying workflow is what its text is read as. -/
theorem tidying_read : Definition.ofText tidyingText = .ok tidying :=
  (Definition.ofText_spelled rfl).trans (by decide +kernel)

/-- The action inside the group is complained of, since steps after a failure come before those at
the end, and the host is as it was. -/
theorem loading_admits_tidying :
    Definition.ofText tidyingText = .ok tidying ∧
    ((Host.new .builtIn (.empty []) []).loadText tidyingText).1 =
      .error (.unknownAction "tidying" "sweeps" "sweep") ∧
    (Host.new .builtIn (.empty []) []).Admits tidying
      ((Host.new .builtIn (.empty []) []).library.find? "tidying" ≠ none) "tidying"
      ((Host.new .builtIn (.empty []) []).loadText tidyingText) := by
  have refused : ((Host.new .builtIn (.empty []) []).loadText tidyingText).1 =
      .error (.unknownAction "tidying" "sweeps" "sweep") := by
    rw [loadText, Library.loadText, tidying_read]
    decide +kernel
  have admits := ((Host.new .builtIn (.empty []) []).loading_admits tidying_read).2.1
  exact ⟨tidying_read, refused, admits⟩

end Host

end Workflow
