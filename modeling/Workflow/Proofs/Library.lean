import Workflow.Library.Files
import Workflow.Proofs.Execution.Defects
import Workflow.Proofs.Table

/-!
# Libraries of definitions that are ready

A library is sound if every definition in it has passed the checks and refers only to actions that
are registered. Loading makes sure of both. Actions are replaced but never taken away, so a
definition that was ready when it was loaded stays so, however the library is changed by loading,
registering and removing.
-/
namespace Workflow

/-- Every name that is registered stays registered. -/
def ActionRegistry.Within (actions later : ActionRegistry) : Prop :=
  ∀ name, actions.contains name → later.contains name

/-- A name that is registered stays so when an action is registered. -/
theorem ActionRegistry.within_insert (actions : ActionRegistry) (name : String) (action : Action) :
    actions.Within (actions.insert name action) := by
  intro other known
  rw [contains, find?, insert]
  by_cases same : other = name
  · rw [same, Table.get?_set_self]
    rfl
  · rw [Table.get?_set_of_ne same]
    exact known

/-- A definition that is ready stays so while actions are registered. -/
theorem Definition.Ready.later {definition : Definition} {actions later : ActionRegistry}
    (ready : definition.Ready actions) (within : actions.Within later) :
    definition.Ready later :=
  ⟨ready.accepted, fun step known action named =>
    within action (ready.registered step known action named)⟩

namespace Library

/-- Every definition is ready for the actions that are registered. -/
def Sound (library : Library) : Prop :=
  ∀ entry ∈ library.definitions, entry.2.Ready library.actions

/-- A library has become another one that is sound, and no action was taken away. -/
structure SoundlyBecomes (library later : Library) : Prop where
  actions : library.actions.Within later.actions
  sound : later.Sound

/-- A sound library that stays the same stays sound. -/
theorem Sound.same {library : Library} (sound : library.Sound) : library.SoundlyBecomes library :=
  ⟨fun _ known => known, sound⟩

/-- What is sound step by step is sound as a whole. -/
theorem SoundlyBecomes.trans {first second third : Library} (earlier : first.SoundlyBecomes second)
    (later : second.SoundlyBecomes third) : first.SoundlyBecomes third :=
  ⟨fun name known => later.actions name (earlier.actions name known), later.sound⟩

variable {library later : Library}

/-- A definition that was not refused is ready if it has passed the checks. -/
theorem ready_of_ensureActions {definition : Definition}
    (accepted : ∀ step ∈ definition.allSteps, step.Accepted)
    (done : library.ensureActions definition = .ok ()) : definition.Ready library.actions := by
  refine ⟨accepted, fun step known action named => ?_⟩
  rw [ensureActions] at done
  split at done
  · cases done
  next none =>
    have all := List.find?_eq_none.mp none (step.name, action)
      (List.mem_filterMap.mpr ⟨step, known, by rw [named]; rfl⟩)
    simpa using all

/-- A definition that is ready may be put into a sound library. -/
theorem Sound.set (sound : library.Sound) {definition : Definition}
    (ready : definition.Ready library.actions) : library.SoundlyBecomes
      { library with definitions := Table.set definition.name definition library.definitions } := by
  refine ⟨fun _ known => known, fun entry member => ?_⟩
  rcases Table.mem_set member with rfl | earlier
  · exact ready
  · exact sound entry earlier

/-- A definition that is ready may be inserted. -/
theorem Sound.insert (sound : library.Sound) {definition : Definition}
    (ready : definition.Ready library.actions) (done : library.insert definition = .ok later) :
    library.SoundlyBecomes later := by
  obtain ⟨definitions, inserted, done⟩ := ok_of_bind done
  rw [DefinitionRegistry.insert] at inserted
  split at inserted
  · cases inserted
  · cases inserted
    cases done
    exact sound.set ready

/-- A definition whose steps are accepted may be loaded. -/
theorem Sound.load (sound : library.Sound) {definition : Definition}
    (accepted : ∀ step ∈ definition.allSteps, step.Accepted)
    (done : library.load definition = .ok later) : library.SoundlyBecomes later := by
  obtain ⟨⟨⟩, ensured, done⟩ := ok_of_bind done
  exact sound.insert (ready_of_ensureActions accepted ensured) done

/-- A definition whose steps are accepted may be loaded again. -/
theorem Sound.reload (sound : library.Sound) {definition : Definition}
    (accepted : ∀ step ∈ definition.allSteps, step.Accepted)
    (done : library.reload definition = .ok later) : library.SoundlyBecomes later := by
  obtain ⟨⟨⟩, ensured, done⟩ := ok_of_bind done
  cases done
  exact sound.set (ready_of_ensureActions accepted ensured)

/-- A text may be loaded. -/
theorem Sound.loadText (sound : library.Sound) {text name : String}
    (done : library.loadText text = .ok (name, later)) : library.SoundlyBecomes later := by
  obtain ⟨definition, read, done⟩ := ok_of_bind done
  obtain ⟨library, loaded, done⟩ := ok_of_bind done
  cases done
  exact sound.load (Definition.ofText_accepted read) loaded

/-- A file may be loaded. -/
theorem Sound.loadFile (sound : library.Sound) {disk : Disk} {path name : String}
    (done : library.loadFile disk path = .ok (name, later)) : library.SoundlyBecomes later := by
  obtain ⟨definition, read, done⟩ := ok_of_bind done
  obtain ⟨library, loaded, done⟩ := ok_of_bind done
  obtain ⟨text, -, read⟩ := ok_of_bind read
  cases done
  exact sound.load (Definition.ofText_accepted read) loaded

/-- Files may be loaded one after another, up to one that is refused. -/
theorem Sound.loadFiles (sound : library.Sound) (disk : Disk) (paths : List String) :
    library.SoundlyBecomes (library.loadFiles disk paths).1 := by
  induction paths generalizing library with
  | nil => exact sound.same
  | cons path rest ih =>
    rw [Library.loadFiles]
    split
    · exact sound.same
    next loaded =>
      have first := sound.loadFile loaded
      exact first.trans (ih first.sound)

/-- A directory may be loaded, also if one of its files is refused. -/
theorem Sound.loadDirectory (sound : library.Sound) {disk : Disk} {directory : Option String}
    {names : List String} {error : Option ConfigError}
    (done : library.loadDirectory disk directory = .loaded later names error) :
    library.SoundlyBecomes later := by
  cases directory with
  | none => cases done
  | some directory =>
    simp only [Library.loadDirectory] at done
    split at done
    · cases done
    next entries _ =>
      cases done
      exact sound.loadFiles disk _

/-- An action may be registered, also in the place of another one. -/
theorem Sound.register (sound : library.Sound) {name : String} {action : Action}
    (done : library.register name action = .ok later) : library.SoundlyBecomes later := by
  obtain ⟨actions, registered, done⟩ := ok_of_bind done
  rw [ActionRegistry.register] at registered
  split at registered
  · cases registered
  · cases registered
    cases done
    have within := library.actions.within_insert (Text.trimmed name) action
    exact ⟨within, fun entry known => (sound entry known).later within⟩

/-- A definition may be removed. -/
theorem Sound.remove (sound : library.Sound) (name : String) :
    library.SoundlyBecomes (library.remove name) :=
  ⟨fun _ known => known, fun entry remains => sound entry (List.mem_filter.mp remains).1⟩

/-! ## Actions that stay -/

/-- To insert a definition leaves the actions as they are. -/
theorem actions_insert {definition : Definition} (done : library.insert definition = .ok later) :
    later.actions = library.actions := by
  obtain ⟨definitions, -, done⟩ := ok_of_bind done
  cases done
  rfl

/-- To load a definition leaves the actions as they are. -/
theorem actions_load {definition : Definition} (done : library.load definition = .ok later) :
    later.actions = library.actions := by
  obtain ⟨-, -, done⟩ := ok_of_bind done
  exact actions_insert done

/-- To load a definition again leaves the actions as they are. -/
theorem actions_reload {definition : Definition} (done : library.reload definition = .ok later) :
    later.actions = library.actions := by
  obtain ⟨-, -, done⟩ := ok_of_bind done
  cases done
  rfl

/-- To load a text leaves the actions as they are. -/
theorem actions_loadText {text name : String} (done : library.loadText text = .ok (name, later)) :
    later.actions = library.actions := by
  obtain ⟨definition, -, done⟩ := ok_of_bind done
  obtain ⟨library, loaded, done⟩ := ok_of_bind done
  cases done
  exact actions_load loaded

/-- To load a file leaves the actions as they are. -/
theorem actions_loadFile {disk : Disk} {path name : String}
    (done : library.loadFile disk path = .ok (name, later)) : later.actions = library.actions := by
  obtain ⟨definition, -, done⟩ := ok_of_bind done
  obtain ⟨library, loaded, done⟩ := ok_of_bind done
  cases done
  exact actions_load loaded

/-- To load files leaves the actions as they are. -/
theorem actions_loadFiles (library : Library) (disk : Disk) (paths : List String) :
    (library.loadFiles disk paths).1.actions = library.actions := by
  induction paths generalizing library with
  | nil => rfl
  | cons path rest ih =>
    rw [Library.loadFiles]
    split
    · rfl
    next loaded => exact (ih _).trans (actions_loadFile loaded)

/-- To load a directory leaves the actions as they are. -/
theorem actions_loadDirectory {disk : Disk} {directory : Option String} {names : List String}
    {error : Option ConfigError}
    (done : library.loadDirectory disk directory = .loaded later names error) :
    later.actions = library.actions := by
  cases directory with
  | none => cases done
  | some directory =>
    simp only [Library.loadDirectory] at done
    split at done
    · cases done
    next entries _ =>
      cases done
      exact actions_loadFiles library disk _

end Library

end Workflow
