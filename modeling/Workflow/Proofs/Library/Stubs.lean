import Workflow.CommandLine
import Workflow.Proofs.Definition.Validity
import Workflow.Proofs.Host.Admission

/-!
# What stubs make of a library

A stub is registered under the name of an action without the blanks at its ends, but a definition
keeps the name as it was written and is refused if that is not registered. So stubs make a
definition ready to be loaded just if each of its actions that is missing has a name without blanks
at its ends. A missing action of any other name stays missing, and its stub takes the place of
what is registered under the trimmed name.

`Library.Stubbed` says what stubs for some names make of a library, `Library.stubs_suffice` what
follows for the definition whose actions they are the names of.
-/
namespace Workflow

/-- What is registered under a name: an action with the number of its calls so far. -/
def ActionRegistry.entry? (actions : ActionRegistry) (name : String) : Option Registered :=
  (actions.find? name).bind (actions.registrations[·]?)

/-- What a stub is when it has just been registered. -/
def Registered.stub : Registered := ⟨.echo, 0⟩

namespace Library

/-- An action is not registered, and if it were registered it would have another name. -/
def Renames (library : Library) (action : String) : Prop :=
  library.actions.contains action = false ∧ Text.trimmed action ≠ action

instance (library : Library) (action : String) : Decidable (library.Renames action) :=
  inferInstanceAs (Decidable (_ ∧ _))

/-- A name is that of the stub of an action that is not registered. -/
def NamesStub (library : Library) (actions : List String) (name : String) : Prop :=
  ∃ action ∈ actions, library.actions.contains action = false ∧ Text.trimmed action = name

/-- What stubs for the actions that are not registered make of a library. -/
structure Stubbed (library : Library) (actions : List String) (later : Library) : Prop where
  definitions : later.definitions = library.definitions
  /-- The registrations so far keep their numbers. -/
  grown : library.actions.registrations <+: later.actions.registrations
  stub : ∀ name, library.NamesStub actions name →
    ∃ registration, later.actions.find? name = some registration ∧
      later.actions.registrations[registration]? = some .stub
  kept : ∀ name, ¬library.NamesStub actions name →
    later.actions.find? name = library.actions.find? name

variable {library later : Library} {action : String} {actions : List String}

/-! ## One stub -/

/-- The library with a stub for an action. -/
def withStub (library : Library) (action : String) : Library :=
  { library with actions := library.actions.insert (Text.trimmed action) .echo }

/-- An echo that is registered under a name that is not blank is a stub. -/
theorem register_echo (library : Library) (named : Text.trimmed action ≠ "") :
    library.register action .echo = .ok (library.withStub action) := by
  have nonempty : (Text.trimmed action).isEmpty = false := by simpa using named
  simp [register, ActionRegistry.register, nonempty, withStub, bind, Except.bind, pure, Except.pure]

/-- A stub is found under its trimmed name. -/
theorem find?_withStub_self (library : Library) (action : String) :
    (library.withStub action).actions.find? (Text.trimmed action) =
      some library.actions.registrations.length := Table.get?_set_self _ _ _

/-- A stub leaves the other names as they are. -/
theorem find?_withStub_of_ne (library : Library) {name : String}
    (differ : name ≠ Text.trimmed action) :
    (library.withStub action).actions.find? name = library.actions.find? name :=
  Table.get?_set_of_ne differ _ _

/-- Still unknown are the names that were so, but for the trimmed name of the stub. -/
theorem contains_withStub (library : Library) (action name : String) :
    (library.withStub action).actions.contains name = false ↔
      library.actions.contains name = false ∧ name ≠ Text.trimmed action := by
  rw [ActionRegistry.contains, ActionRegistry.contains]
  by_cases same : name = Text.trimmed action
  · simp [same, find?_withStub_self]
  · simp [same, find?_withStub_of_ne library same]

/-! ## All stubs -/

/-- Once an action has its stub, the names of stubs are that name and those of the rest. -/
theorem namesStub_cons (missing : library.actions.contains action = false) (name : String) :
    library.NamesStub (action :: actions) name ↔
      (library.withStub action).NamesStub actions name ∨ name = Text.trimmed action := by
  constructor
  · rintro ⟨other, among, unknown, rfl⟩
    rcases List.mem_cons.mp among with rfl | later
    · exact .inr rfl
    · by_cases same : other = Text.trimmed action
      · exact .inr (by rw [same, Text.trimmed_trimmed])
      · exact .inl ⟨other, later, (contains_withStub library action other).mpr ⟨unknown, same⟩, rfl⟩
  · rintro (⟨other, among, unknown, rfl⟩ | rfl)
    · exact ⟨other, List.mem_cons_of_mem _ among,
        ((contains_withStub library action other).mp unknown).1, rfl⟩
    · exact ⟨action, List.mem_cons_self, missing, rfl⟩

/-- An action that is registered needs no stub. -/
theorem namesStub_cons_of_contains (known : library.actions.contains action = true)
    (name : String) :
    library.NamesStub (action :: actions) name ↔ library.NamesStub actions name := by
  constructor
  · rintro ⟨other, among, unknown, named⟩
    rcases List.mem_cons.mp among with rfl | later
    · rw [known] at unknown
      cases unknown
    · exact ⟨other, later, unknown, named⟩
  · rintro ⟨other, among, rest⟩
    exact ⟨other, List.mem_cons_of_mem _ among, rest⟩

/-- What the rest of the stubs makes of a library with one stub is what all of them make of it. -/
theorem Stubbed.cons (missing : library.actions.contains action = false)
    (stubbed : (library.withStub action).Stubbed actions later) :
    library.Stubbed (action :: actions) later where
  definitions := stubbed.definitions
  grown := (List.prefix_append _ _).trans stubbed.grown
  stub name named := by
    rcases (namesStub_cons missing name).mp named with again | rfl
    · exact stubbed.stub name again
    · by_cases again : (library.withStub action).NamesStub actions (Text.trimmed action)
      · exact stubbed.stub _ again
      · refine ⟨_, (stubbed.kept _ again).trans (find?_withStub_self library action), ?_⟩
        have last : (library.withStub action).actions.registrations[
            library.actions.registrations.length]? = some .stub := List.getElem?_concat_length
        obtain ⟨more, whole⟩ := stubbed.grown
        rw [← whole, List.getElem?_append_left (List.getElem?_eq_some_iff.mp last).1, last]
  kept name unnamed := by
    rw [namesStub_cons missing, not_or] at unnamed
    rw [stubbed.kept name unnamed.1, find?_withStub_of_ne library unnamed.2]

/-- Stubs for names that are not blank can all be registered. -/
theorem registerStubsFor_stubbed (named : ∀ action ∈ actions, Text.trimmed action ≠ "")
    (library : Library) : ∃ stubs later, library.registerStubsFor actions = .ok (stubs, later) ∧
      library.Stubbed actions later := by
  induction actions generalizing library with
  | nil =>
    refine ⟨[], library, rfl, rfl, List.prefix_rfl, ?_, fun _ _ => rfl⟩
    rintro name ⟨action, among, -⟩
    cases among
  | cons action rest ih =>
    have restNamed : ∀ action ∈ rest, Text.trimmed action ≠ "" :=
      fun other among => named other (List.mem_cons_of_mem _ among)
    rw [registerStubsFor]
    cases known : library.actions.contains action with
    | true =>
      obtain ⟨stubs, later, done, stubbed⟩ := ih restNamed library
      have same : library.NamesStub (action :: rest) = library.NamesStub rest :=
        funext fun name => propext (namesStub_cons_of_contains known name)
      refine ⟨stubs, later, done, stubbed.definitions, stubbed.grown, ?_, ?_⟩
      · rw [same]
        exact stubbed.stub
      · rw [same]
        exact stubbed.kept
    | false =>
      obtain ⟨stubs, later, done, stubbed⟩ := ih restNamed (library.withStub action)
      refine ⟨action :: stubs, later, ?_, stubbed.cons known⟩
      rw [register_echo library (named action List.mem_cons_self)]
      simp [bind, Except.bind, done, pure, Except.pure]

/-! ## What is found afterwards -/

namespace Stubbed

/-- Afterwards the names are known that were known before or are those of stubs. -/
theorem contains_iff (stubbed : library.Stubbed actions later) (name : String) :
    later.actions.contains name = true ↔
      library.actions.contains name = true ∨ library.NamesStub actions name := by
  by_cases named : library.NamesStub actions name
  · obtain ⟨registration, found, -⟩ := stubbed.stub name named
    simp [ActionRegistry.contains, found, named]
  · simp [ActionRegistry.contains, stubbed.kept name named, named]

/-- An action is missing afterwards just if it was missing and its stub has another name. -/
theorem lacks_iff (stubbed : library.Stubbed actions later) (among : action ∈ actions) :
    later.actions.contains action = false ↔ library.Renames action := by
  rw [← Bool.not_eq_true, stubbed.contains_iff, not_or, Bool.not_eq_true]
  constructor
  · rintro ⟨missing, unnamed⟩
    exact ⟨missing, fun same => unnamed ⟨action, among, missing, same⟩⟩
  · rintro ⟨missing, differ⟩
    refine ⟨missing, ?_⟩
    rintro ⟨other, -, -, rfl⟩
    exact differ (Text.trimmed_trimmed other)

/-- Under the name of a stub there is a stub. -/
theorem entry?_stub (stubbed : library.Stubbed actions later) {name : String}
    (named : library.NamesStub actions name) : later.actions.entry? name = some .stub := by
  obtain ⟨registration, found, entry⟩ := stubbed.stub name named
  rw [ActionRegistry.entry?, found]
  exact entry

/-- Under other names there is what was there before. -/
theorem entry?_kept (stubbed : library.Stubbed actions later) {name : String}
    (unnamed : ¬library.NamesStub actions name) {entry : Registered}
    (registered : library.actions.entry? name = some entry) :
    later.actions.entry? name = some entry := by
  obtain ⟨registration, found, here⟩ := Option.bind_eq_some_iff.mp registered
  obtain ⟨more, whole⟩ := stubbed.grown
  rw [ActionRegistry.entry?, stubbed.kept name unnamed, found, ← whole]
  exact (List.getElem?_append_left (List.getElem?_eq_some_iff.mp here).1).trans here

end Stubbed

/-- Of a name that is registered the stub is that of an action that it renames. -/
theorem namesStub_iff_of_registered {name : String} {entry : Registered}
    (registered : library.actions.entry? name = some entry) :
    library.NamesStub actions name ↔
      ∃ action ∈ actions, library.Renames action ∧ Text.trimmed action = name := by
  obtain ⟨registration, found, -⟩ := Option.bind_eq_some_iff.mp registered
  constructor
  · rintro ⟨action, among, missing, rfl⟩
    refine ⟨action, among, ⟨missing, fun same => ?_⟩, rfl⟩
    rw [same] at found
    simp [ActionRegistry.contains, found] at missing
  · rintro ⟨action, among, ⟨missing, -⟩, same⟩
    exact ⟨action, among, missing, same⟩

/-! ## Loading afterwards -/

/-- Loading complains of an action just if the actions are not all known. -/
theorem load_unknownAction_iff (library : Library) (definition : Definition) :
    (∃ workflow step action,
        library.load definition = .error (.unknownAction workflow step action)) ↔
      ¬library.Knows definition := by
  rcases library.ensureActions_spec definition with
    ⟨knows, passed⟩ | ⟨unknown, error, failed, step, action, -, -, rfl⟩
  · have inserted : library.load definition = library.insert definition := by
      rw [load, passed]
      rfl
    rw [inserted, insert, DefinitionRegistry.insert]
    simp only [knows, not_true_eq_false, iff_false]
    rintro ⟨workflow, step, action, refused⟩
    split at refused <;> cases refused
  · refine iff_of_true ⟨definition.name, step.name, action, ?_⟩ unknown
    rw [load, failed]
    rfl

/-- The names of the actions of a definition are those that its steps name. -/
theorem knows_iff_uses {definition : Definition} : library.Knows definition ↔
    ∀ action ∈ definition.actionUses.map Prod.snd, library.actions.contains action = true := by
  rw [knows_iff]
  simp only [Definition.actionUses, List.map_filterMap, List.mem_filterMap, Lacks]
  constructor
  · rintro clear action ⟨step, member, named⟩
    cases stepAction : step.action with
    | none => simp [stepAction] at named
    | some name =>
      obtain rfl : name = action := by simpa [stepAction] using named
      by_contra unknown
      exact clear step member ⟨name, stepAction, by simpa using unknown⟩
  · rintro known step member ⟨action, named, missing⟩
    have contained := known action ⟨step, member, by simp [named]⟩
    rw [missing] at contained
    cases contained

/-- Afterwards a definition is ready just if none of its actions is renamed. -/
theorem Stubbed.knows_iff {definition : Definition}
    (stubbed : library.Stubbed (definition.actionUses.map Prod.snd) later) :
    later.Knows definition ↔ ¬∃ action ∈ definition.actionUses.map Prod.snd,
      library.Renames action := by
  rw [knows_iff_uses]
  constructor
  · rintro known ⟨action, among, renames⟩
    have missing := (stubbed.lacks_iff among).mpr renames
    rw [known action among] at missing
    cases missing
  · intro none action among
    by_contra missing
    rw [Bool.not_eq_true, stubbed.lacks_iff among] at missing
    exact none ⟨action, among, missing⟩

/-- The actions of a definition that was read have names that are not blank. -/
theorem trimmed_ne_of_ofText {text : String} {definition : Definition}
    (read : Definition.ofText text = .ok definition) :
    ∀ action ∈ definition.actionUses.map Prod.snd, Text.trimmed action ≠ "" := by
  obtain ⟨document, -, read⟩ := ok_of_bind read
  obtain ⟨draft, -, read⟩ := ok_of_bind read
  have describes := Draft.validate_iff.mp (ok_of_mapError read)
  intro action among
  obtain ⟨use, uses, rfl⟩ := List.mem_map.mp among
  obtain ⟨step, member, named⟩ := List.mem_filterMap.mp uses
  obtain ⟨name, stepAction, rfl⟩ := Option.map_eq_some_iff.mp named
  obtain ⟨origin, -, fits⟩ := describes.origin step member
  rw [fits.action, unlessBlank_eq_some] at stepAction
  exact Text.trimmed_ne_empty stepAction.2

/-- The command line loads a definition from a file into a library with stubs. -/
theorem library_of_file {options : CommandLine.RunOptions} {disk : Disk} {text : String}
    {definition : Definition} {stubs : List String} (settings : Settings)
    (wanted : options.stubActions = true) (file : disk.isFile options.workflow = true)
    (holds : disk.read options.workflow = .ok text)
    (read : Definition.ofText text = .ok definition)
    (done : builtIn.registerStubs [definition] = .ok (stubs, later)) :
    options.library settings disk = (later.load definition).map (·, definition.name) := by
  have filed : Definition.ofFile disk options.workflow = .ok definition := by
    rw [Definition.ofFile, holds]
    exact read
  have stubbed : CommandLine.withStubs options.stubActions .builtIn (.ok [definition]) =
      .ok later := by
    rw [CommandLine.withStubs, if_pos wanted]
    simp [bind, Except.bind, done, pure, Except.pure]
  rw [CommandLine.RunOptions.library, if_pos file, filed]
  simp only [bind, Except.bind, stubbed]
  cases later.load definition <;> rfl

/-- A definition is loaded under a name that is free just if its actions are known. -/
theorem load_isOk_iff {definition : Definition} (free : library.find? definition.name = none) :
    (∃ later, library.load definition = .ok later) ↔ library.Knows definition := by
  rw [load_eq, free]
  rcases library.accept_spec definition false with
    ⟨knows, -, entered⟩ | ⟨blocked, error, refused, -⟩
  · exact iff_of_true ⟨_, entered⟩ knows
  · refine iff_of_false ?_ fun knows => blocked ⟨knows, rfl⟩
    rintro ⟨later, entered⟩
    rw [Option.isSome_none, refused] at entered
    cases entered

/-- Stubs can be registered for every definition that was read. It is then refused for the sake of
an action just if they rename one of its actions; a name that was registered still stands for what
it stood for, unless a renamed action has taken it, which is then a stub. So a file is loaded with
stubs just if none of its actions is renamed. -/
theorem stubs_suffice (library : Library) {text : String} {definition : Definition}
    (read : Definition.ofText text = .ok definition) :
    ∃ stubs stubbed, library.registerStubs [definition] = .ok (stubs, stubbed) ∧
      ((∃ workflow step action,
          stubbed.load definition = .error (.unknownAction workflow step action)) ↔
        ∃ action ∈ definition.actionUses.map Prod.snd, library.Renames action) ∧
      (∀ name entry, library.actions.entry? name = some entry →
        ((¬∃ action ∈ definition.actionUses.map Prod.snd,
            library.Renames action ∧ Text.trimmed action = name) →
          stubbed.actions.find? name = library.actions.find? name ∧
            stubbed.actions.entry? name = some entry) ∧
        ((∃ action ∈ definition.actionUses.map Prod.snd,
            library.Renames action ∧ Text.trimmed action = name) →
          stubbed.actions.entry? name = some .stub)) ∧
      ∀ (options : CommandLine.RunOptions) (settings : Settings) (disk : Disk),
        options.stubActions = true → disk.isFile options.workflow = true →
        disk.read options.workflow = .ok text →
        ((∃ loaded, options.library settings disk = .ok (loaded, definition.name)) ↔
          ¬∃ action ∈ definition.actionUses.map Prod.snd, builtIn.Renames action) := by
  have named := trimmed_ne_of_ofText read
  have single (library : Library) : library.registerStubs [definition] =
      library.registerStubsFor (definition.actionUses.map Prod.snd) := by
    simp [registerStubs]
  obtain ⟨stubs, stubbed, done, becomes⟩ := registerStubsFor_stubbed named library
  refine ⟨stubs, stubbed, (single library).trans done, ?_, ?_, ?_⟩
  · rw [load_unknownAction_iff, becomes.knows_iff, not_not]
  · intro name entry registered
    rw [← namesStub_iff_of_registered registered]
    exact ⟨fun unnamed => ⟨becomes.kept name unnamed, becomes.entry?_kept unnamed registered⟩,
      becomes.entry?_stub⟩
  · intro options settings disk wanted file holds
    obtain ⟨stubs, stubbed, done, becomes⟩ := registerStubsFor_stubbed named builtIn
    have free : stubbed.find? definition.name = none := by
      rw [find?, becomes.definitions]
      rfl
    rw [← becomes.knows_iff, ← load_isOk_iff free,
      library_of_file settings wanted file holds read ((single builtIn).trans done)]
    cases stubbed.load definition <;> simp [Except.map]

/-- A definition whose action has a blank at its end. -/
def paddedText : String := "[workflow]
name = \"notes\"

[[steps]]
name = \"notes\"
action = \"log \"
"

/-- What the text describes. -/
def padded : Definition where
  name := "notes"
  description := none
  version := none
  trigger := .manual
  steps := [⟨"notes", .action, some "log ", none, none, none, none, none, none, []⟩]
  onError := []
  onComplete := []

/-- The stub takes the place of the action that is built in, and the definition is refused all the
same. -/
theorem stubs_not_enough :
    Definition.ofText paddedText = .ok padded ∧
    ∃ stubs stubbed, builtIn.registerStubs [padded] = .ok (stubs, stubbed) ∧
      (∃ workflow step action,
        stubbed.load padded = .error (.unknownAction workflow step action)) ∧
      (stubbed.actions.entry? "log").map (·.action.answer 0 .null) ≠
        (builtIn.actions.entry? "log").map (·.action.answer 0 .null) := by
  have read : Definition.ofText paddedText = .ok padded := by decide +kernel
  have renames : builtIn.Renames "log " := by decide +kernel
  obtain ⟨stubs, stubbed, done, becomes⟩ :=
    registerStubsFor_stubbed (trimmed_ne_of_ofText read) builtIn
  have stub : stubbed.actions.entry? "log" = some .stub :=
    becomes.entry?_stub ⟨"log ", by decide, renames.1, by decide +kernel⟩
  refine ⟨read, stubs, stubbed, done, ?_, ?_⟩
  · rw [load_unknownAction_iff, becomes.knows_iff, not_not]
    exact ⟨"log ", by decide, renames⟩
  · have logs : (builtIn.actions.entry? "log").map (·.action.answer 0 .null) =
        some (.after 0 (.ok (.record [("logged", .bool true)]))) := rfl
    have echoes : Registered.stub.action.answer 0 .null = .after 0 (.ok .null) := rfl
    rw [stub, logs, Option.map_some, echoes]
    simp

/-- With stubs a definition is loaded that has two actions missing, one of them inside a group, and
the action that takes notes stays what it was. -/
theorem stubs_suffice_tidying :
    Definition.ofText Host.tidyingText = .ok Host.tidying ∧
    ¬builtIn.Knows Host.tidying ∧
    ∃ stubs stubbed, builtIn.registerStubs [Host.tidying] = .ok (stubs, stubbed) ∧
      (¬∃ workflow step action,
        stubbed.load Host.tidying = .error (.unknownAction workflow step action)) ∧
      stubbed.actions.entry? "log" = some ⟨.log, 0⟩ := by
  have unknown : ¬builtIn.Knows Host.tidying := by
    rw [knows_iff_uses]
    decide +kernel
  have none : ¬∃ action ∈ Host.tidying.actionUses.map Prod.snd, builtIn.Renames action := by
    decide +kernel
  obtain ⟨stubs, stubbed, done, loading, keeping, -⟩ :=
    stubs_suffice builtIn Host.tidying_read
  have untaken : ¬∃ action ∈ Host.tidying.actionUses.map Prod.snd,
      builtIn.Renames action ∧ Text.trimmed action = "log" := by
    rintro ⟨action, among, renames, -⟩
    exact none ⟨action, among, renames⟩
  exact ⟨Host.tidying_read, unknown, stubs, stubbed, done, mt loading.mp none,
    ((keeping "log" ⟨.log, 0⟩ rfl).1 untaken).2⟩

end Library

end Workflow
