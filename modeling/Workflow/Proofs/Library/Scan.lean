import Workflow.CommandLine
import Workflow.Proofs.Library.Directories
import Workflow.Proofs.Library.Stubs

/-!
# Scanning a directory for stubs

Before stubs are registered a directory is scanned for definitions, which is not the same as loading
it: the scan also reads the directories in it whose names have the extension of definitions, and
cannot. Such a misnamed directory ends every scan, while loading passes over it. Apart from that the
two agree. They read the same files, the scan fails only for the sake of a file that cannot be read
or does not describe a definition, and then the directory could not be loaded either; so where a
workflow can be run without stubs, it can be run with them, and finds the same library.
-/
namespace Workflow

/-- Results of a function are all good and are collected in order, or one of them is an error and is
given. -/
theorem mapM_spec {Error First Second : Type} (f : First → Except Error Second)
    (items : List First) :
    (∃ results, items.mapM f = .ok results ∧ items.map f = results.map .ok) ∨
      ∃ error, items.mapM f = .error error ∧ .error error ∈ items.map f := by
  induction items with
  | nil => exact .inl ⟨[], rfl, rfl⟩
  | cons item rest ih =>
    rw [List.mapM_cons, List.map_cons]
    cases first : f item with
    | error error => exact .inr ⟨error, rfl, List.mem_cons_self⟩
    | ok result =>
      rcases ih with ⟨results, done, good⟩ | ⟨error, failed, among⟩
      · refine .inl ⟨result :: results, by rw [done]; rfl, ?_⟩
        rw [good, List.map_cons]
      · exact .inr ⟨error, by rw [failed]; rfl, List.mem_cons_of_mem _ among⟩

namespace Directory

/-- A directory in it has a name with the extension of definitions. -/
def Misnames (directory : Directory) : Prop :=
  ∃ name entries, HasExtension name ∧ (name, .directory entries) ∈ directory

/-- What a scan has to do with the files with definitions. -/
structure Scanned (directory : Directory) (files : List NamedFile)
    (scan : Except ConfigError (List Definition)) : Prop where
  /-- It succeeds exactly if no directory is misnamed and all files describe definitions. -/
  succeeds : (∃ definitions, scan = .ok definitions) ↔
    ¬directory.Misnames ∧ ∀ file ∈ files, ∃ definition, file.definition = .ok definition
  /-- It gives the definitions that the files describe. -/
  found : ∀ definitions, scan = .ok definitions →
    (definitions.map .ok).Perm (files.map (·.definition))
  failed : ∀ error, scan = .error error →
    directory.Misnames ∧ error = .file .isDirectory ∨
      ∃ file ∈ files, file.definition = .error error

variable {directory : Directory} {files : List NamedFile} {disk : Disk} {path : String}

/-- The entries that are scanned. -/
def named (directory : Directory) : Directory := directory.filter fun entry =>
  isDefinitionName entry.1

/-- The named entries are those of the directory whose names have the extension. -/
theorem mem_named {name : String} {entry : DiskEntry} :
    (name, entry) ∈ directory.named ↔ HasExtension name ∧ (name, entry) ∈ directory := by
  rw [named, List.mem_filter, isDefinitionName_iff, and_comm]

/-- Scanning a directory that is listed reads the entries with the extension. -/
theorem Proper.scan (proper : directory.Proper) (listed : disk.list path = .ok directory) :
    (∃ definitions, Definition.ofDirectory disk (some path) = .ok definitions ∧
        directory.named.map (·.2.definition) = definitions.map .ok) ∨
      ∃ error, Definition.ofDirectory disk (some path) = .error error ∧
        .error error ∈ directory.named.map (·.2.definition) := by
  have names : directory.definitionNames = directory.named.map Prod.fst := List.filter_map
  have read : directory.definitionNames.map
        (fun name => Definition.ofFile disk (Disk.inside path name)) =
      directory.named.map (·.2.definition) := by
    rw [names, List.map_map]
    refine List.map_congr_left fun ⟨name, entry⟩ member => ?_
    exact proper.reads listed (mem_named.mp member).2
  have scanned : Definition.ofDirectory disk (some path) = directory.definitionNames.mapM
      fun name => Definition.ofFile disk (Disk.inside path name) := by
    rw [Definition.ofDirectory, listed]
  rw [scanned, ← read]
  exact mapM_spec _ _

/-- Where no directory is misnamed, the files are what is scanned. -/
theorem Files.perm_named (shown : directory.Files files) (proper : directory.Proper)
    (clear : ¬directory.Misnames) :
    (files.map fun file => (file.name, DiskEntry.file file.content)).Perm directory.named := by
  have once : (files.map fun file => (file.name, DiskEntry.file file.content)).Nodup := by
    refine List.pairwise_map.mpr (shown.ascending.imp fun {first second} before same => ?_)
    rw [(Prod.mk.inj same).1] at before
    exact String.lt_irrefl _ before
  have distinct : directory.named.Nodup := (List.Nodup.of_map _ proper.distinct).filter _
  refine (List.perm_ext_iff_of_nodup once distinct).mpr fun ⟨name, entry⟩ => ?_
  rw [mem_named, List.mem_map]
  constructor
  · rintro ⟨file, member, same⟩
    cases same
    exact (shown.mem_iff file).mp member
  · rintro ⟨ends, held⟩
    cases entry with
    | file content => exact ⟨⟨name, content⟩, (shown.mem_iff _).mpr ⟨ends, held⟩, rfl⟩
    | directory entries => exact absurd ⟨name, entries, ends, held⟩ clear

/-- An error among what is scanned is that of a misnamed directory or of a file. -/
theorem Files.of_mem_scanned (shown : directory.Files files) {error : ConfigError}
    (among : .error error ∈ directory.named.map (·.2.definition)) :
    directory.Misnames ∧ error = .file .isDirectory ∨
      ∃ file ∈ files, file.definition = .error error := by
  obtain ⟨⟨name, entry⟩, member, failed⟩ := List.mem_map.mp among
  obtain ⟨ends, held⟩ := mem_named.mp member
  cases entry with
  | file content => exact .inr ⟨⟨name, content⟩, (shown.mem_iff _).mpr ⟨ends, held⟩, failed⟩
  | directory entries =>
    obtain rfl : .file .isDirectory = error := Except.error.inj failed
    exact .inl ⟨⟨name, entries, ends, held⟩, rfl⟩

/-- All that is scanned is good exactly if no directory is misnamed and all files are good. -/
theorem Files.good_iff (shown : directory.Files files) :
    (∀ result ∈ directory.named.map (·.2.definition), ∃ definition, result = .ok definition) ↔
      ¬directory.Misnames ∧ ∀ file ∈ files, ∃ definition, file.definition = .ok definition := by
  constructor
  · intro good
    constructor
    · rintro ⟨name, entries, ends, held⟩
      obtain ⟨definition, impossible⟩ := good _
        (List.mem_map.mpr ⟨(name, .directory entries), mem_named.mpr ⟨ends, held⟩, rfl⟩)
      cases impossible
    · intro file member
      exact good _ (List.mem_map.mpr ⟨(file.name, .file file.content),
        mem_named.mpr ((shown.mem_iff file).mp member), rfl⟩)
  · rintro ⟨clear, described⟩ result among
    cases result with
    | ok definition => exact ⟨definition, rfl⟩
    | error error =>
      rcases shown.of_mem_scanned among with ⟨misnamed, -⟩ | ⟨file, member, wrong⟩
      · exact absurd misnamed clear
      · obtain ⟨definition, right⟩ := described file member
        rw [wrong] at right
        cases right

/-- What the scan of a directory that is listed has to do with its files. -/
theorem Files.scanned (shown : directory.Files files) (proper : directory.Proper)
    (listed : disk.list path = .ok directory) :
    directory.Scanned files (Definition.ofDirectory disk (some path)) := by
  rcases proper.scan listed with ⟨definitions, done, good⟩ | ⟨error, failed, among⟩
  · have clear := shown.good_iff.mp fun result member => by
      rw [good] at member
      obtain ⟨definition, -, same⟩ := List.mem_map.mp member
      exact ⟨definition, same.symm⟩
    rw [done]
    constructor
    · exact ⟨fun _ => clear, fun _ => ⟨definitions, rfl⟩⟩
    · rintro _ ⟨⟩
      have collected := (shown.perm_named proper clear.1).map (·.2.definition)
      rw [good, List.map_map] at collected
      exact collected.symm
    · rintro _ ⟨⟩
  · rw [failed]
    constructor
    · refine ⟨(fun ⟨_, impossible⟩ => nomatch impossible), fun clear => ?_⟩
      obtain ⟨definition, impossible⟩ := shown.good_iff.mpr clear _ among
      cases impossible
    · rintro _ ⟨⟩
    · rintro _ ⟨⟩
      exact shown.of_mem_scanned among

end Directory

/-! ## Loading and stubs -/

namespace Library

variable {library later : Library} {disk : Disk} {path : String} {directory : Directory}
  {files : List NamedFile} {definitions : List Definition}

/-- What came of loading a directory has to do with files: all of them were loaded, or one of them
is the reason why loading ended. -/
structure LoadedFrom (library : Library) (files : List NamedFile) (outcome : DirectoryLoad) :
    Prop where
  all : ∀ later names, outcome = .loaded later names none →
    ∃ definitions, library.Fits files definitions ∧ names = definitions.map (·.name)
  stopped : ∀ later names error, outcome = .loaded later names (some error) →
    ∃ file ∈ files, ∃ entered, library.Offends entered file error

/-- A proper directory that can be listed is loaded from its files. -/
theorem loadedFrom_listed (library : Library) (proper : directory.Proper)
    (listed : disk.list path = .ok directory) (shown : directory.Files files) :
    library.LoadedFrom files (library.loadDirectory disk (some path)) := by
  by_cases fit : ∃ definitions, library.Fits files definitions
  · obtain ⟨definitions, fits⟩ := fit
    obtain ⟨later, -, loaded⟩ := fits.loadsDirectory proper listed shown
    rw [loaded]
    constructor
    · rintro _ _ ⟨⟩
      exact ⟨definitions, fits, rfl⟩
    · rintro _ _ _ ⟨⟩
  · obtain ⟨before, file, after, entered, error, later, rfl, -, offends, -, loaded⟩ :=
      loadDirectory_stops proper listed shown fit
    rw [loaded]
    constructor
    · rintro _ _ ⟨⟩
    · rintro _ _ _ ⟨⟩
      exact ⟨file, List.mem_append_right _ List.mem_cons_self, entered, offends⟩

/-- The definitions that a scan finds in files that the library takes have known actions. -/
theorem Fits.knows_scanned {taken : List Definition} (fits : library.Fits files taken)
    (scanned : directory.Scanned files (.ok definitions)) (definition : Definition)
    (member : definition ∈ definitions) : library.Knows definition := by
  have found : Except.ok definition ∈ taken.map (Except.ok (ε := ConfigError)) := by
    rw [← fits.described]
    exact (scanned.found definitions rfl).subset (List.mem_map_of_mem member)
  obtain ⟨other, known, same⟩ := List.mem_map.mp found
  obtain rfl : other = definition := Except.ok.inj same
  exact fits.knows other known

/-- Definitions whose actions are known need no stubs. -/
theorem registerStubs_known (known : ∀ definition ∈ definitions, library.Knows definition) :
    library.registerStubs definitions = .ok ([], library) := by
  have registered : ∀ action ∈ definitions.flatMap fun definition =>
      definition.actionUses.map Prod.snd, library.actions.contains action = true := by
    intro action among
    obtain ⟨definition, member, used⟩ := List.mem_flatMap.mp among
    exact knows_iff_uses.mp (known definition member) action used
  rw [registerStubs]
  generalize definitions.flatMap (fun definition => definition.actionUses.map Prod.snd) = actions
    at registered
  induction actions with
  | nil => rfl
  | cons action rest ih =>
    rw [registerStubsFor, if_pos (registered action List.mem_cons_self)]
    exact ih fun other later => registered other (List.mem_cons_of_mem _ later)

end Library

namespace CommandLine

/-- A library is asked for by the name of a workflow and not by a path. -/
theorem RunOptions.library_of_name (options : RunOptions) (settings : Settings) {disk : Disk}
    (unfiled : disk.isFile options.workflow = false) :
    options.library settings disk = (do
      let library ← withStubs options.stubActions .builtIn
        (Definition.ofDirectory disk settings.workflowsDirectory)
      match library.loadDirectory disk settings.workflowsDirectory with
      | .unset | .missing => return (library, options.workflow)
      | .loaded library _ none => return (library, options.workflow)
      | .loaded _ _ (some error) => throw error) := by
  rw [library]
  exact if_neg (by simp [unfiled])

/-- A scan that fails ends the preparation of a run with stubs. -/
theorem RunOptions.library_of_scan_error (options : RunOptions) (settings : Settings) {disk : Disk}
    (unfiled : disk.isFile options.workflow = false) {error : ConfigError}
    (failed : Definition.ofDirectory disk settings.workflowsDirectory = .error error) :
    { options with stubActions := true }.library settings disk = .error error := by
  rw [library_of_name { options with stubActions := true } settings unfiled, failed]
  rfl

/-- A scan that finds only definitions whose actions are built in makes no difference. -/
theorem RunOptions.library_of_scan (options : RunOptions) (settings : Settings) {disk : Disk}
    (unfiled : disk.isFile options.workflow = false) {definitions : List Definition}
    (found : Definition.ofDirectory disk settings.workflowsDirectory = .ok definitions)
    (known : ∀ definition ∈ definitions, Library.builtIn.Knows definition) :
    { options with stubActions := true }.library settings disk =
      { options with stubActions := false }.library settings disk := by
  have stubbed : withStubs true .builtIn (.ok definitions) = .ok .builtIn := by
    rw [withStubs, if_pos rfl]
    simp [bind, Except.bind, Library.registerStubs_known known, pure, Except.pure]
  rw [library_of_name { options with stubActions := true } settings unfiled,
    library_of_name { options with stubActions := false } settings unfiled, found, stubbed]
  rfl

/-- Without stubs a run is prepared by loading the directory. -/
theorem RunOptions.loaded_of_library {options : RunOptions} {settings : Settings} {disk : Disk}
    (unfiled : disk.isFile options.workflow = false) {result : Library × String}
    (prepared : { options with stubActions := false }.library settings disk = .ok result)
    {path : String} (chosen : settings.workflowsDirectory = some path) {directory : Directory}
    (listed : disk.list path = .ok directory) :
    ∃ later names, Library.builtIn.loadDirectory disk (some path) = .loaded later names none := by
  rw [library_of_name { options with stubActions := false } settings unfiled, chosen] at prepared
  have plain : withStubs false .builtIn (Definition.ofDirectory disk (some path)) =
      .ok .builtIn := rfl
  rw [plain] at prepared
  cases outcome : Library.builtIn.loadDirectory disk (some path) with
  | unset => simp [Library.loadDirectory, listed] at outcome
  | missing => simp [Library.loadDirectory, listed] at outcome
  | loaded later names error =>
    cases error with
    | none => exact ⟨later, names, rfl⟩
    | some error =>
      simp only [bind, Except.bind, outcome] at prepared
      cases prepared

/-- Where a run is prepared without stubs, it is prepared in the same way with stubs if no directory
is misnamed, and otherwise the scan fails. -/
theorem RunOptions.library_of_scanned {options : RunOptions} {settings : Settings} {disk : Disk}
    (unfiled : disk.isFile options.workflow = false) {result : Library × String}
    (prepared : { options with stubActions := false }.library settings disk = .ok result)
    {path : String} (chosen : settings.workflowsDirectory = some path) {directory : Directory}
    (listed : disk.list path = .ok directory) {files : List NamedFile}
    (scanned : directory.Scanned files (Definition.ofDirectory disk (some path)))
    (loading : Library.builtIn.LoadedFrom files
      (Library.builtIn.loadDirectory disk (some path))) :
    (¬directory.Misnames →
      { options with stubActions := true }.library settings disk = .ok result) ∧
    (directory.Misnames → { options with stubActions := true }.library settings disk =
      .error (.file .isDirectory)) := by
  obtain ⟨later, names, loaded⟩ := loaded_of_library unfiled prepared chosen listed
  obtain ⟨definitions, fits, -⟩ := loading.all later names loaded
  cases scan : Definition.ofDirectory disk (some path) with
  | ok found =>
    rw [scan] at scanned
    have clear := (scanned.succeeds.mp ⟨found, rfl⟩).1
    refine ⟨fun _ => ?_, fun misnamed => absurd misnamed clear⟩
    rw [← chosen] at scan
    rw [library_of_scan options settings unfiled scan (fits.knows_scanned scanned)]
    exact prepared
  | error error =>
    rw [scan] at scanned
    rcases scanned.failed error rfl with ⟨misnamed, rfl⟩ | ⟨file, member, wrong⟩
    · rw [← chosen] at scan
      exact ⟨fun clear => absurd misnamed clear, fun _ =>
        library_of_scan_error options settings unfiled scan⟩
    -- The library has taken every file, so none of them can have failed the scan.
    · obtain ⟨definition, -, right⟩ := fits.describes file member
      rw [wrong] at right
      cases right

/-- A scan passes over a directory that is not there. -/
theorem ofDirectory_absent {settings : Settings} {disk : Disk}
    (absent : ∀ path directory, settings.workflowsDirectory = some path →
      disk.list path ≠ .ok directory) :
    Definition.ofDirectory disk settings.workflowsDirectory = .ok [] := by
  cases chosen : settings.workflowsDirectory with
  | none => rfl
  | some path =>
    cases listed : disk.list path with
    | ok directory => exact absurd listed (absent path directory chosen)
    | error fault => simp only [Definition.ofDirectory, listed]

/-- Whatever a directory of definitions holds: scanning it for stubs and loading it have to do with
the same files, namely with those that have the extension of definitions, except that a directory
with the extension ends the scan. The scan gives the definitions in the files; it fails only for the
sake of such a directory or of a file that cannot be read or does not describe a definition. So
where a workflow can be prepared to run without stubs, it is prepared in the same way with stubs if
there is no directory with the extension, and otherwise the scan fails. A directory that is not
there is passed over by both. -/
theorem scan_agrees (settings : Settings) (disk : Disk) :
    (∀ path directory, settings.workflowsDirectory = some path →
      disk.list path = .ok directory → directory.Proper →
      ∃ files, directory.Files files ∧
        directory.Scanned files (Definition.ofDirectory disk settings.workflowsDirectory) ∧
        (∀ library : Library,
          library.LoadedFrom files (library.loadDirectory disk settings.workflowsDirectory)) ∧
        ∀ (options : RunOptions) (result : Library × String),
          disk.isFile options.workflow = false →
          { options with stubActions := false }.library settings disk = .ok result →
          (¬directory.Misnames →
            { options with stubActions := true }.library settings disk = .ok result) ∧
          (directory.Misnames → { options with stubActions := true }.library settings disk =
            .error (.file .isDirectory))) ∧
    ((∀ path directory, settings.workflowsDirectory = some path →
        disk.list path ≠ .ok directory) →
      Definition.ofDirectory disk settings.workflowsDirectory = .ok [] ∧
      ∀ options : RunOptions, disk.isFile options.workflow = false →
        { options with stubActions := true }.library settings disk =
          { options with stubActions := false }.library settings disk) := by
  constructor
  · intro path directory chosen listed proper
    obtain ⟨files, shown, -⟩ := proper.exists_files
    have scanned := shown.scanned proper listed
    have loading (library : Library) := library.loadedFrom_listed proper listed shown
    rw [chosen]
    exact ⟨files, shown, scanned, loading, fun options result unfiled prepared =>
      RunOptions.library_of_scanned unfiled prepared chosen listed scanned (loading .builtIn)⟩
  · intro absent
    have nothing := ofDirectory_absent absent
    refine ⟨nothing, fun options unfiled => ?_⟩
    exact RunOptions.library_of_scan options settings unfiled nothing
      fun _ missing => absurd missing List.not_mem_nil

/-- A directory with a file that describes a definition, and with a directory under some name. -/
def shelf (name : String) : Directory :=
  [(name, .directory []), ("greeting.toml", .file (some Host.greetingText))]

/-- A disk on which that is the directory of definitions. -/
def shelved (name : String) : Disk := ⟨[("flows", .directory (shelf name))], []⟩

/-- Settings that name it. -/
def shelfSettings : Settings := ⟨some "flows", 10, none, 64⟩

/-- A run of the workflow that is described there. -/
def greetingRun : RunOptions := ⟨"greeting", .absent, false, false⟩

/-- The only file on the shelf is that of the greeting, whatever the directory beside it is called.
-/
theorem shelf_files (name : String) : (shelf name).Files [Host.greetingFile] := by
  have ends : HasExtension "greeting.toml" := ⟨"greeting", by decide, rfl⟩
  refine ⟨List.pairwise_singleton _ _, fun ⟨other, content⟩ => ?_⟩
  simp only [shelf, Host.greetingFile, List.mem_cons, List.not_mem_nil, or_false, Prod.mk.injEq,
    NamedFile.mk.injEq, DiskEntry.file.injEq, reduceCtorEq, and_false, false_or]
  refine ⟨?_, And.right⟩
  rintro ⟨rfl, rfl⟩
  exact ⟨ends, rfl, rfl⟩

/-- The file of the greeting is taken by the built-in library. -/
theorem greetingFile_taken : Library.builtIn.Takes [] Host.greetingFile Host.greeting where
  described := Host.greeting_read
  known := Library.knows_iff_uses.mpr (by decide +kernel)
  free := rfl
  fresh := List.not_mem_nil

/-- Without stubs the run is prepared, whatever the name of the directory beside the file. -/
theorem greetingRun_prepared {name : String} (proper : (shelf name).Proper) :
    ∃ later, Library.builtIn.Gains [Host.greeting] later ∧
      greetingRun.library shelfSettings (shelved name) = .ok (later, "greeting") := by
  have fits : Library.builtIn.Fits [Host.greetingFile] [Host.greeting] :=
    .concat .nil greetingFile_taken
  have listed : (shelved name).list "flows" = .ok (shelf name) := rfl
  obtain ⟨later, gains, loaded⟩ := fits.loadsDirectory proper listed (shelf_files name)
  refine ⟨later, gains, ?_⟩
  rw [RunOptions.library_of_name greetingRun shelfSettings rfl]
  have plain : withStubs greetingRun.stubActions .builtIn
      (Definition.ofDirectory (shelved name) shelfSettings.workflowsDirectory) = .ok .builtIn := rfl
  have outcome : Library.builtIn.loadDirectory (shelved name) shelfSettings.workflowsDirectory =
      .loaded later ["greeting"] none := loaded
  rw [plain]
  simp only [bind, Except.bind, outcome]
  rfl

/-- A directory among the files makes no difference to stubs if its name has another extension. -/
theorem scan_agrees_shelved :
    (shelved "drafts").list "flows" = .ok (shelf "drafts") ∧ (shelf "drafts").Proper ∧
    ¬(shelf "drafts").Misnames ∧
    ∃ later, Library.builtIn.Gains [Host.greeting] later ∧
      greetingRun.library shelfSettings (shelved "drafts") = .ok (later, "greeting") ∧
      { greetingRun with stubActions := true }.library shelfSettings (shelved "drafts") =
        .ok (later, "greeting") := by
  have proper : (shelf "drafts").Proper := ⟨by decide, by decide +kernel⟩
  have clear : ¬(shelf "drafts").Misnames := by
    rintro ⟨name, entries, ends, held⟩
    have named : name = "drafts" := by
      rcases List.mem_cons.mp held with same | last
      · exact (Prod.mk.inj same).1
      · cases (Prod.mk.inj (List.mem_singleton.mp last)).2
    have other : isDefinitionName "drafts" = false := by decide +kernel
    rw [← isDefinitionName_iff, named, other] at ends
    cases ends
  obtain ⟨later, gains, prepared⟩ := greetingRun_prepared proper
  obtain ⟨files, -, -, -, runs⟩ :=
    (scan_agrees shelfSettings (shelved "drafts")).1 "flows" (shelf "drafts") rfl rfl proper
  exact ⟨rfl, proper, clear, later, gains, prepared,
    (runs greetingRun (later, "greeting") rfl prepared).1 clear⟩

/-- A directory with the extension of definitions ends the scan, although the only file is good and
the workflow can be run without stubs. -/
theorem misnamed_directory_scanned :
    (shelf "drafts.toml").Files [Host.greetingFile] ∧
    Host.greetingFile.definition = .ok Host.greeting ∧
    Definition.ofDirectory (shelved "drafts.toml") (some "flows") = .error (.file .isDirectory) ∧
    (∃ later, Library.builtIn.Gains [Host.greeting] later ∧
      greetingRun.library shelfSettings (shelved "drafts.toml") = .ok (later, "greeting")) ∧
    { greetingRun with stubActions := true }.library shelfSettings (shelved "drafts.toml") =
      .error (.file .isDirectory) := by
  have proper : (shelf "drafts.toml").Proper := ⟨by decide, by decide +kernel⟩
  have failed : Definition.ofDirectory (shelved "drafts.toml") (some "flows") =
      .error (.file .isDirectory) := by decide +kernel
  exact ⟨shelf_files _, Host.greeting_read, failed, greetingRun_prepared proper,
    greetingRun.library_of_scan_error shelfSettings rfl failed⟩

end CommandLine

end Workflow
