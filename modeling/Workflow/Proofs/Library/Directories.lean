import Mathlib.Data.List.Induction
import Workflow.Proofs.Disk
import Workflow.Proofs.Host.Admission

/-!
# Directories that are loaded

The files with definitions of a directory are loaded in ascending order of names. Each of them is
entered if the library takes its definition after those that have been entered before; the first one
of which this is not so ends the loading with its error, and what was entered before stays.

`Library.Fits` says of files that all of them are entered, `Library.Offends` what the error tells of
a file that is not, and `Library.Gains` what becomes of the library. `Host.directory_loaded` is the
law for a host, whatever its library holds and whatever the directory holds.
-/
namespace Workflow

open scoped List

namespace Library

/-- A library takes the definition in a file after those that have been entered: the file describes
it, its actions are known, and its name is neither in the library nor has it been entered. -/
structure Takes (library : Library) (entered : List Definition) (file : NamedFile)
    (definition : Definition) : Prop where
  described : file.definition = .ok definition
  known : library.Knows definition
  free : library.find? definition.name = none
  fresh : definition.name ∉ entered.map (·.name)

/-- A library takes the definitions in files, one after another. -/
inductive Fits (library : Library) : List NamedFile → List Definition → Prop where
  | nil : library.Fits [] []
  | concat {files : List NamedFile} {definitions : List Definition} {file : NamedFile}
      {definition : Definition} (earlier : library.Fits files definitions)
      (takes : library.Takes definitions file definition) :
      library.Fits (files ++ [file]) (definitions ++ [definition])

/-- What is wrong with a file after definitions that have been entered: it does not describe a
definition, or it describes one that has an action which is not registered, or else a name that is
taken. -/
def Offends (library : Library) (entered : List Definition) (file : NamedFile)
    (error : ConfigError) : Prop :=
  file.definition = .error error ∨
    ∃ definition, file.definition = .ok definition ∧
      (library.TellsOfAction definition error ∨
        library.Knows definition ∧
          (library.find? definition.name ≠ none ∨ definition.name ∈ entered.map (·.name)) ∧
          error = .duplicateWorkflow definition.name)

/-- A library becomes one that holds exactly definitions besides what it held. -/
structure Gains (library : Library) (definitions : List Definition) (later : Library) : Prop where
  actions : later.actions = library.actions
  entries : later.definitions.Perm
    (definitions.map (fun definition => (definition.name, definition)) ++ library.definitions)
  entered : ∀ definition ∈ definitions, later.find? definition.name = some definition
  others : ∀ name, name ∉ definitions.map (·.name) → later.find? name = library.find? name
  kept : ∀ name definition, library.find? name = some definition →
    later.find? name = some definition

variable {library later : Library} {entered : List Definition} {file : NamedFile}
  {definition : Definition}

/-! ## What has been gained -/

namespace Gains

/-- Without files a library gains nothing. -/
theorem nil (library : Library) : library.Gains [] library where
  actions := rfl
  entries := .refl _
  entered _ missing := absurd missing List.not_mem_nil
  others _ _ := rfl
  kept _ _ found := found

/-- The same actions are known. -/
theorem knows_iff (gains : library.Gains entered later) (definition : Definition) :
    later.Knows definition ↔ library.Knows definition := by
  rw [Knows, Knows, gains.actions]

/-- The same is told of an action that is not known. -/
theorem tellsOfAction_iff (gains : library.Gains entered later) (definition : Definition)
    (error : ConfigError) :
    later.TellsOfAction definition error ↔ library.TellsOfAction definition error := by
  have same : later.Lacks = library.Lacks := by
    funext step
    rw [Lacks, Lacks, gains.actions]
  rw [TellsOfAction, TellsOfAction, same]

/-- A name is still free if it was free and has not been entered. -/
theorem find?_eq_none_iff (gains : library.Gains entered later) (name : String) :
    later.find? name = none ↔ library.find? name = none ∧ name ∉ entered.map (·.name) := by
  by_cases among : name ∈ entered.map (·.name)
  · obtain ⟨definition, member, rfl⟩ := List.mem_map.mp among
    simp [gains.entered definition member, among]
  · simp [gains.others name among, among]

/-- One definition more is entered under a name that is free. -/
theorem concat (gains : library.Gains entered later)
    (takes : library.Takes entered file definition) :
    library.Gains (entered ++ [definition]) (later.upsert definition) := by
  have enters := later.enters_upsert definition
  constructor
  · exact enters.actions.trans gains.actions
  · have free : later.find? definition.name = none :=
      (gains.find?_eq_none_iff _).mpr ⟨takes.free, takes.fresh⟩
    calc (later.upsert definition).definitions
      _ ~ (definition.name, definition) :: later.definitions := Table.set_perm free definition
      _ ~ (definition.name, definition) ::
            (entered.map (fun definition => (definition.name, definition)) ++
              library.definitions) := gains.entries.cons _
      _ ~ _ := by simpa using List.perm_middle.symm
  · intro other among
    rcases List.mem_append.mp among with earlier | last
    · have differ : other.name ≠ definition.name := fun same =>
        takes.fresh (same ▸ List.mem_map_of_mem earlier)
      rw [enters.others _ differ]
      exact gains.entered other earlier
    · obtain rfl := List.mem_singleton.mp last
      exact enters.entry
  · intro name outside
    rw [List.map_append, List.mem_append, not_or] at outside
    have differ : name ≠ definition.name := fun same => outside.2 (by simp [same])
    rw [enters.others _ differ]
    exact gains.others name outside.1
  · intro name held found
    have differ : name ≠ definition.name := fun same => by
      rw [same, takes.free] at found
      cases found
    rw [enters.others _ differ]
    exact gains.kept name held found

end Gains

/-- Files that the library takes describe the definitions that are entered. -/
theorem Fits.described {files : List NamedFile} (fits : library.Fits files entered) :
    files.map (·.definition) = entered.map .ok := by
  induction fits with
  | nil => rfl
  | concat _ takes ih => simp [ih, takes.described]

/-- A file that the library takes describes one of the definitions that are entered. -/
theorem Fits.describes {files : List NamedFile} (fits : library.Fits files entered)
    (file : NamedFile) (member : file ∈ files) :
    ∃ definition ∈ entered, file.definition = .ok definition := by
  have among : file.definition ∈ entered.map .ok := by
    rw [← fits.described]
    exact List.mem_map_of_mem member
  obtain ⟨definition, known, same⟩ := List.mem_map.mp among
  exact ⟨definition, known, same.symm⟩

/-- The actions of the definitions that are entered are known. -/
theorem Fits.knows {files : List NamedFile} (fits : library.Fits files entered)
    (definition : Definition) (member : definition ∈ entered) : library.Knows definition := by
  induction fits with
  | nil => cases member
  | concat _ takes ih =>
    rcases List.mem_append.mp member with earlier | last
    · exact ih earlier
    · obtain rfl := List.mem_singleton.mp last
      exact takes.known

/-! ## One file -/

variable {disk : Disk} {path : String}

/-- Loading a file loads the definition that was read from it. -/
theorem loadFile_of_read (library : Library)
    (read : Definition.ofFile disk path = .ok definition) :
    library.loadFile disk path = (library.load definition).map (definition.name, ·) := by
  rw [loadFile, read]
  rfl

/-- A file that the library takes is entered. -/
theorem Takes.loadFile (takes : library.Takes entered file definition)
    (gains : library.Gains entered later)
    (read : Definition.ofFile disk path = file.definition) :
    later.loadFile disk path = .ok (definition.name, later.upsert definition) := by
  have free : later.find? definition.name = none :=
    (gains.find?_eq_none_iff _).mpr ⟨takes.free, takes.fresh⟩
  have knows : later.Knows definition := (gains.knows_iff definition).mpr takes.known
  rw [loadFile_of_read later (read.trans takes.described), load_eq, free]
  rcases later.accept_spec definition false with ⟨-, -, done⟩ | ⟨blocked, -⟩
  · rw [Option.isSome_none, done]
    rfl
  · exact absurd ⟨knows, rfl⟩ blocked

/-- A file that the library does not take is refused with an error that tells why. -/
theorem Gains.refuses (gains : library.Gains entered later)
    (refused : ¬∃ definition, library.Takes entered file definition)
    (read : Definition.ofFile disk path = file.definition) :
    ∃ error, library.Offends entered file error ∧ later.loadFile disk path = .error error := by
  cases described : file.definition with
  | error error =>
    refine ⟨error, .inl described, ?_⟩
    rw [Library.loadFile, read, described]
    rfl
  | ok definition =>
    rw [loadFile_of_read later (read.trans described), load_eq]
    rcases later.accept_spec definition (later.find? definition.name).isSome with
      ⟨knows, free, -⟩ | ⟨-, error, failed, tells⟩
    · have vacant : later.find? definition.name = none := by simpa using free
      obtain ⟨free, fresh⟩ := (gains.find?_eq_none_iff _).mp vacant
      exact absurd ⟨definition, described, (gains.knows_iff _).mp knows, free, fresh⟩ refused
    · refine ⟨error, .inr ⟨definition, described, ?_⟩, by rw [failed]; rfl⟩
      rcases tells with action | ⟨knows, taken, named⟩
      · exact .inl ((gains.tellsOfAction_iff definition error).mp action)
      · refine .inr ⟨(gains.knows_iff definition).mp knows, ?_, named⟩
        by_contra neither
        rw [not_or, not_not] at neither
        rw [(gains.find?_eq_none_iff _).mpr neither] at taken
        cases taken

/-! ## All files -/

/-- Either the library takes all files, or there is a first one that it does not take after those
before. -/
theorem fits_or_stops (library : Library) (files : List NamedFile) :
    (∃ definitions, library.Fits files definitions) ∨
      ∃ before file after entered, files = before ++ file :: after ∧
        library.Fits before entered ∧ ¬∃ definition, library.Takes entered file definition := by
  induction files using List.reverseRecOn with
  | nil => exact .inl ⟨[], .nil⟩
  | append_singleton files last ih =>
    rcases ih with ⟨definitions, fits⟩ | ⟨before, file, after, entered, rfl, rest⟩
    · by_cases taken : ∃ definition, library.Takes definitions last definition
      · obtain ⟨definition, takes⟩ := taken
        exact .inl ⟨_, fits.concat takes⟩
      · exact .inr ⟨files, last, [], definitions, rfl, fits, taken⟩
    · exact .inr ⟨before, file, after ++ [last], entered, by simp, rest⟩

/-- Files that the library takes are entered, and then come the others. -/
theorem Fits.loadFiles {files : List NamedFile} (fits : library.Fits files entered)
    {paths : NamedFile → String}
    (reads : ∀ file ∈ files, Definition.ofFile disk (paths file) = file.definition) :
    ∃ later, library.Gains entered later ∧ ∀ rest,
      library.loadFiles disk (files.map paths ++ rest) =
        ((later.loadFiles disk rest).1,
          entered.map (·.name) ++ (later.loadFiles disk rest).2.1,
          (later.loadFiles disk rest).2.2) := by
  induction fits with
  | nil => exact ⟨library, .nil library, fun _ => rfl⟩
  | @concat files definitions file definition fits takes ih =>
    obtain ⟨later, gains, goes⟩ := ih fun file member => reads file (List.mem_append_left _ member)
    refine ⟨later.upsert definition, gains.concat takes, fun rest => ?_⟩
    have read : Definition.ofFile disk (paths file) = file.definition :=
      reads file (List.mem_append_right _ List.mem_cons_self)
    have split : (files ++ [file]).map paths ++ rest = files.map paths ++ paths file :: rest := by
      simp
    have entered : later.loadFiles disk (paths file :: rest) =
        (((later.upsert definition).loadFiles disk rest).1,
          definition.name :: ((later.upsert definition).loadFiles disk rest).2.1,
          ((later.upsert definition).loadFiles disk rest).2.2) := by
      rw [Library.loadFiles, takes.loadFile gains read]
    rw [split, goes, entered, List.map_append, List.append_assoc]
    rfl

/-- Files that the library takes are all loaded. -/
theorem Fits.loads {files : List NamedFile} (fits : library.Fits files entered)
    {paths : NamedFile → String}
    (reads : ∀ file ∈ files, Definition.ofFile disk (paths file) = file.definition) :
    ∃ later, library.Gains entered later ∧
      library.loadFiles disk (files.map paths) = (later, entered.map (·.name), none) := by
  obtain ⟨later, gains, goes⟩ := fits.loadFiles reads
  refine ⟨later, gains, ?_⟩
  have whole := goes []
  rw [List.append_nil] at whole
  rw [whole, Library.loadFiles, List.append_nil]

/-- Files that the library does not all take are loaded up to the first one that it does not. -/
theorem loadFiles_stops {files : List NamedFile} {paths : NamedFile → String}
    (reads : ∀ file ∈ files, Definition.ofFile disk (paths file) = file.definition)
    (spoiled : ¬∃ definitions, library.Fits files definitions) :
    ∃ before file after entered error later, files = before ++ file :: after ∧
      library.Fits before entered ∧ library.Offends entered file error ∧
      library.Gains entered later ∧
      library.loadFiles disk (files.map paths) = (later, entered.map (·.name), some error) := by
  rcases library.fits_or_stops files with
    fits | ⟨before, file, after, entered, rfl, fits, refused⟩
  · exact absurd fits spoiled
  · obtain ⟨later, gains, goes⟩ :=
      fits.loadFiles fun file member => reads file (List.mem_append_left _ member)
    have read : Definition.ofFile disk (paths file) = file.definition :=
      reads file (List.mem_append_right _ List.mem_cons_self)
    obtain ⟨error, offends, failed⟩ := gains.refuses refused read
    refine ⟨before, file, after, entered, error, later, rfl, fits, offends, gains, ?_⟩
    rw [List.map_append, List.map_cons, goes, Library.loadFiles, failed, List.append_nil]

/-! ## The files of a directory -/

/-- The files of a directory that is listed are loaded from their paths. -/
theorem loadDirectory_listed {directory : Directory} (proper : directory.Proper)
    (listed : disk.list path = .ok directory) {files : List NamedFile}
    (shown : directory.Files files) {names : List String} {error : Option ConfigError}
    (loads : library.loadFiles disk (files.map fun file => Disk.inside path file.name) =
      (later, names, error)) :
    library.loadDirectory disk (some path) = .loaded later names error := by
  have paths : directory.definitionFiles.map (Disk.inside path) =
      files.map fun file => Disk.inside path file.name := by
    rw [← shown.names proper, List.map_map]
    rfl
  simp only [loadDirectory, listed]
  rw [paths, loads]

/-- A directory is loaded if the library takes its files. -/
theorem Fits.loadsDirectory {files : List NamedFile} (fits : library.Fits files entered)
    {directory : Directory} (proper : directory.Proper)
    (listed : disk.list path = .ok directory) (shown : directory.Files files) :
    ∃ later, library.Gains entered later ∧
      library.loadDirectory disk (some path) = .loaded later (entered.map (·.name)) none := by
  obtain ⟨later, gains, loads⟩ := fits.loads (proper.reads_files listed shown)
  exact ⟨later, gains, loadDirectory_listed proper listed shown loads⟩

/-- Otherwise it is loaded up to the first file that the library does not take. -/
theorem loadDirectory_stops {files : List NamedFile} {directory : Directory}
    (proper : directory.Proper) (listed : disk.list path = .ok directory)
    (shown : directory.Files files)
    (spoiled : ¬∃ definitions, library.Fits files definitions) :
    ∃ before file after entered error later, files = before ++ file :: after ∧
      library.Fits before entered ∧ library.Offends entered file error ∧
      library.Gains entered later ∧
      library.loadDirectory disk (some path) =
        .loaded later (entered.map (·.name)) (some error) := by
  obtain ⟨before, file, after, entered, error, later, split, fits, offends, gains, loads⟩ :=
    loadFiles_stops (proper.reads_files listed shown) spoiled
  exact ⟨before, file, after, entered, error, later, split, fits, offends, gains,
    loadDirectory_listed proper listed shown loads⟩

end Library

namespace Host

/-- Whatever is registered on a host and whatever its directory of definitions holds: if the library
takes all files with definitions in ascending order of names, their names are given in that order
and the library has gained their definitions. Otherwise there is a first file that it does not take
after those before; then the error of that file is given, and the library has gained the definitions
before. Actions and what was registered before stay as they are. Where no directory is set, or none
lies at its path, nothing changes and no names are given. -/
theorem directory_loaded (host : Host) (engine : Nat) :
    (∀ directory entries,
      (host.engine engine).settings.workflowsDirectory = some directory →
      host.disk.list directory = .ok entries → entries.Proper →
      ∃ files, entries.Files files ∧
        (∀ definitions, host.library.Fits files definitions →
          ∃ later, host.library.Gains definitions later ∧
            host.loadDirectory engine =
              (.ok (definitions.map (·.name)), { host with library := later })) ∧
        ((¬∃ definitions, host.library.Fits files definitions) →
          ∃ before file after entered error later, files = before ++ file :: after ∧
            host.library.Fits before entered ∧ host.library.Offends entered file error ∧
            host.library.Gains entered later ∧
            host.loadDirectory engine = (.error error, { host with library := later }))) ∧
    (∀ directory fault,
      (host.engine engine).settings.workflowsDirectory = some directory →
      host.disk.list directory = .error fault →
      host.loadDirectory engine = (.ok [], host.warn .missingDirectory)) ∧
    ((host.engine engine).settings.workflowsDirectory = none →
      host.loadDirectory engine = (.ok [], host)) := by
  refine ⟨fun directory entries chosen listed proper => ?_, fun directory fault chosen absent => ?_,
    fun unset => ?_⟩
  · obtain ⟨files, shown, -⟩ := proper.exists_files
    refine ⟨files, shown, fun definitions fits => ?_, fun spoiled => ?_⟩
    · obtain ⟨later, gains, loaded⟩ := fits.loadsDirectory proper listed shown
      refine ⟨later, gains, ?_⟩
      simp only [loadDirectory, chosen, loaded]
    · obtain ⟨before, file, after, entered, error, later, split, fits, offends, gains, loaded⟩ :=
        Library.loadDirectory_stops proper listed shown spoiled
      refine ⟨before, file, after, entered, error, later, split, fits, offends, gains, ?_⟩
      simp only [loadDirectory, chosen, loaded]
  · simp only [loadDirectory, Library.loadDirectory, chosen, absent]
  · simp only [loadDirectory, Library.loadDirectory, unset]

/-- A text that describes a definition whose only action is built in. -/
def greetingText : String := "[workflow]
name = \"greeting\"

[[steps]]
name = \"greets\"
action = \"echo\"
"

/-- What the text describes. -/
def greeting : Definition where
  name := "greeting"
  description := none
  version := none
  trigger := .manual
  steps := [⟨"greets", .action, some "echo", none, none, none, none, none, none, []⟩]
  onError := []
  onComplete := []

-- The characters of the text are one term, as deep as the text is long.
set_option maxRecDepth 2000 in
/-- The greeting workflow is what its text is read as. -/
theorem greeting_read : Definition.ofText greetingText = .ok greeting :=
  (Definition.ofText_spelled rfl).trans (by decide +kernel)

/-- A file with the text. -/
def greetingFile : NamedFile := ⟨"greeting.toml", some greetingText⟩

/-- A file whose bytes are no text. -/
def tornFile : NamedFile := ⟨"torn.toml", none⟩

/-- A directory that lists a file whose bytes are no text before one that describes a definition;
it also holds a directory with the extension of definitions and a file without. -/
def strewn : Directory :=
  [("torn.toml", .file none), ("drafts.toml", .directory []), ("notes.txt", .file (some "")),
    ("greeting.toml", .file (some greetingText))]

/-- A host with nothing but the actions that are built in, and a directory of definitions. -/
def reader (entries : Directory) : Host :=
  .new .builtIn ⟨[("flows", .directory entries)], []⟩ [.new ⟨some "flows", 10, none, 64⟩ []]

/-- The files that count are put into order. -/
theorem strewn_files : strewn.Files [greetingFile, tornFile] := by
  refine ⟨by decide, fun ⟨name, content⟩ => ?_⟩
  rw [← isDefinitionName_iff]
  have other : isDefinitionName "notes.txt" = false := by decide +kernel
  have first : isDefinitionName "greeting.toml" = true := by decide +kernel
  have second : isDefinitionName "torn.toml" = true := by decide +kernel
  simp only [strewn, List.mem_cons, List.not_mem_nil, or_false, Prod.mk.injEq, NamedFile.mk.injEq,
    greetingFile, tornFile, DiskEntry.file.injEq, reduceCtorEq, and_false, false_or]
  constructor
  · rintro (⟨rfl, rfl⟩ | ⟨rfl, rfl⟩)
    · exact ⟨first, .inr (.inr ⟨rfl, rfl⟩)⟩
    · exact ⟨second, .inl ⟨rfl, rfl⟩⟩
  · rintro ⟨ends, ⟨rfl, rfl⟩ | ⟨rfl, rfl⟩ | ⟨rfl, rfl⟩⟩
    · exact .inr ⟨rfl, rfl⟩
    · rw [other] at ends
      cases ends
    · exact .inl ⟨rfl, rfl⟩

/-- The definition before the file that is no text is entered, and the error is that of the file. -/
theorem directory_loaded_torn :
    (reader strewn).disk.list "flows" = .ok strewn ∧ strewn.Proper ∧
    ∃ later, Library.builtIn.Gains [greeting] later ∧
      (reader strewn).loadDirectory 0 =
        (.error (.file .notText), { reader strewn with library := later }) := by
  have listed : (reader strewn).disk.list "flows" = .ok strewn := rfl
  have proper : strewn.Proper := ⟨by decide, by decide +kernel⟩
  refine ⟨listed, proper, ?_⟩
  obtain ⟨files, shown, -, stops⟩ :=
    (directory_loaded (reader strewn) 0).1 "flows" strewn rfl listed proper
  obtain rfl := shown.unique strewn_files
  have greets : greetingFile.definition = .ok greeting := greeting_read
  have torn : tornFile.definition = .error (.file .notText) := rfl
  have spoiled :
      ¬∃ definitions, (reader strewn).library.Fits [greetingFile, tornFile] definitions := by
    rintro ⟨definitions, fits⟩
    obtain ⟨definition, -, described⟩ := fits.describes tornFile (by simp)
    rw [torn] at described
    cases described
  obtain ⟨before, file, after, entered, error, later, split, fits, offends, gains, loads⟩ :=
    stops spoiled
  have failed : ((reader strewn).loadDirectory 0).1 = .error (.file .notText) := by
    decide +kernel
  rw [loads] at failed
  obtain rfl : error = .file .notText := Except.error.inj failed
  have unread : file.definition = .error (.file .notText) := by
    rcases offends with unread | ⟨definition, -, ⟨_, _, -, -, other⟩ | ⟨-, -, other⟩⟩
    · exact unread
    · cases other
    · cases other
  match before, split with
  | [], split =>
    obtain ⟨rfl, -⟩ := List.cons.inj split
    rw [greets] at unread
    cases unread
  | [_], split =>
    obtain ⟨rfl, -⟩ := List.cons.inj split
    have same : entered.map Except.ok = [greeting].map (Except.ok (ε := ConfigError)) := by
      rw [← fits.described, List.map_singleton, List.map_singleton, greets]
    obtain rfl : entered = [greeting] :=
      List.map_injective_iff.mpr (fun _ _ => Except.ok.inj) same
    exact ⟨later, gains, loads⟩
  | _ :: _ :: _, split => simp at split

end Host

end Workflow
