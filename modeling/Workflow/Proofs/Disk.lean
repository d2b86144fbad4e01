import Workflow.Library.Files
import Workflow.Proofs.Parts
import Workflow.Proofs.Table

/-!
# What directories hold

A directory is proper if it holds each name once and a path may lead through each of its names. Then
a path into a directory that has been listed leads to the entry that the listing shows under the
name at its end, so what is read from the files with definitions is what the listing shows of them.
-/
namespace Workflow

/-- Where each key occurs once, what lies under a key is found there. -/
theorem Table.get?_eq_some_iff {A : Type} {table : Table A}
    (distinct : (table.map Prod.fst).Nodup) {key : String} {entry : A} :
    table.get? key = some entry ↔ (key, entry) ∈ table := by
  refine ⟨Table.mem_of_get?, fun member => ?_⟩
  obtain ⟨before, after, rfl⟩ := List.append_of_mem member
  rw [List.map_append, List.map_cons, List.nodup_append] at distinct
  have fresh : ∀ other ∈ before, other.1 ≠ key := fun other earlier =>
    distinct.2.2 other.1 (List.mem_map_of_mem earlier) key List.mem_cons_self
  refine List.lookup_eq_some_iff.mpr ⟨before, after, rfl, fun other earlier => ?_⟩
  exact bne_iff_ne.mpr (Ne.symm (fresh other earlier))

namespace Disk

/-- A text is a name: a path of a single part that leads on from where the path begins. -/
def IsName (name : String) : Prop := name ∉ ["", ".", ".."] ∧ '/' ∉ name.toList

instance (name : String) : Decidable (IsName name) := inferInstanceAs (Decidable (_ ∧ _))

/-! ## Ways on a disk -/

/-- Whoever has come to a directory goes on from there. -/
theorem walk_append {place reached : DiskPlace} {names : List String}
    (comes : walk place names = .ok (reached, none)) (rest : List String) :
    walk place (names ++ rest) = walk reached rest := by
  induction names generalizing place with
  | nil =>
    cases comes
    rfl
  | cons part names ih =>
    rw [List.cons_append, walk]
    rw [walk] at comes
    by_cases stays : part = "" ∨ part = "."
    · rw [if_pos stays] at comes ⊢
      exact ih comes
    · rw [if_neg stays] at comes ⊢
      by_cases back : part = ".."
      · rw [if_pos back] at comes ⊢
        split at comes <;> exact ih comes
      · rw [if_neg back] at comes ⊢
        cases found : Table.get? part place.entries with
        | none => simp [found] at comes
        | some entry =>
          cases entry with
          | file content =>
            rw [found] at comes
            dsimp only at comes
            split at comes <;> cases comes
          | directory entries =>
            rw [found] at comes
            exact ih comes

/-- A way that does not end at a directory ends at a file. -/
theorem isFile_of_walk {place reached : DiskPlace} {names : List String} {entry : DiskEntry}
    (comes : walk place names = .ok (reached, some entry)) : entry.isFile = true := by
  induction names generalizing place with
  | nil => cases comes
  | cons part names ih =>
    rw [walk] at comes
    split at comes
    · exact ih comes
    · split at comes
      · split at comes <;> exact ih comes
      · split at comes
        · cases comes
        · exact ih comes
        · split at comes
          · cases comes
            rfl
          · cases comes

/-- From a directory a name leads to the entry that lies under it. -/
theorem walk_name (place : DiskPlace) {name : String} (named : IsName name) :
    walk place [name] = match Table.get? name place.entries with
      | none => .error .missing
      | some (.directory entries) =>
        .ok (⟨name :: place.names, place.entries :: place.outer, entries⟩, none)
      | some (.file content) => .ok (place, some (.file content)) := by
  have differs : ¬(name = "" ∨ name = ".") ∧ name ≠ ".." := by
    have apart := named.1
    simp only [List.mem_cons, List.not_mem_nil, or_false, not_or] at apart
    exact ⟨not_or.mpr ⟨apart.1, apart.2.1⟩, apart.2.2⟩
  rw [walk, if_neg differs.1, if_neg differs.2]
  split <;> simp_all [walk]

/-- The parts of a path into a directory are those of the directory and the name. -/
theorem parts_inside (directory : String) {name : String} (named : IsName name) :
    parts (inside directory name) = parts directory ++ [name] := by
  have spelled : (inside directory name).toList =
      directory.toList ++ '/' :: name.toList := by
    rw [inside, String.toList_append, String.toList_append]
    exact List.append_assoc _ _ _
  rw [parts, parts, spelled, Text.splitAt_append_separator, Text.splitAt_clear named.2]
  simp

/-- A directory that is listed is reached by the names in its path. -/
theorem walk_of_list {disk : Disk} {directory : String} {entries : Directory}
    (listed : disk.list directory = .ok entries) :
    directory ≠ "" ∧ ∃ place, place.entries = entries ∧
      walk disk.rootPlace (disk.namesFromRoot directory) = .ok (place, none) := by
  have located : disk.locate directory = .ok (.directory entries) := by
    rw [list] at listed
    split at listed
    · cases listed
      assumption
    · cases listed
    · cases listed
  rw [locate] at located
  split at located
  · cases located
  next filled =>
    refine ⟨fun empty => filled (by simp [empty]), ?_⟩
    split at located
    next comes =>
      cases located
      have file := isFile_of_walk comes
      cases file
    next place comes =>
      cases located
      exact ⟨place, rfl, comes⟩
    · cases located

/-- The way to a name in a directory is that to the directory, and then the name. -/
theorem namesFromRoot_inside (disk : Disk) {directory name : String} (filled : directory ≠ "")
    (named : IsName name) :
    disk.namesFromRoot (inside directory name) = disk.namesFromRoot directory ++ [name] := by
  have begins : isAbsolute (inside directory name) = isAbsolute directory := by
    have some : directory.toList ≠ [] := fun empty => filled (String.toList_eq_nil_iff.mp empty)
    rw [isAbsolute, isAbsolute, inside, String.toList_append, String.toList_append,
      List.append_assoc, List.head?_append_of_ne_nil _ some]
  rw [namesFromRoot, namesFromRoot, begins, parts_inside directory named]
  split
  · rfl
  · exact (List.append_assoc _ _ _).symm

/-- Inside a directory lies what is listed under a name. -/
theorem locate_inside {disk : Disk} {directory : String} {entries : Directory}
    (listed : disk.list directory = .ok entries) {name : String} (named : IsName name)
    {entry : DiskEntry} (held : Table.get? name entries = some entry) :
    disk.locate (inside directory name) = .ok entry := by
  obtain ⟨filled, place, rfl, comes⟩ := walk_of_list listed
  have long : (inside directory name).isEmpty = false := by
    simp [inside]
  rw [locate, if_neg (by simp [long]), namesFromRoot_inside disk filled named,
    walk_append comes, walk_name place named, held]
  cases entry <;> rfl

end Disk

/-! ## Files with definitions -/

/-- A name has the extension of definitions. -/
def HasExtension (name : String) : Prop := ∃ stem, stem ≠ "" ∧ name = stem ++ ".toml"

/-- The test for names of definition files tests for the extension. -/
theorem isDefinitionName_iff (name : String) : isDefinitionName name = true ↔ HasExtension name := by
  rw [isDefinitionName, Bool.and_eq_true, List.isSuffixOf_iff_suffix, decide_eq_true_eq]
  constructor
  · rintro ⟨⟨stem, whole⟩, longer⟩
    refine ⟨String.ofList stem, fun empty => longer ?_, ?_⟩
    · have nothing : stem = [] := by simpa using congrArg String.toList empty
      rw [← whole, nothing, List.nil_append]
    · apply String.toList_inj.mp
      rw [String.toList_append, String.toList_ofList]
      exact whole.symm
  · rintro ⟨stem, filled, rfl⟩
    rw [String.toList_append]
    refine ⟨⟨stem.toList, rfl⟩, fun same => filled ?_⟩
    have nothing : stem.toList = [] := List.append_left_eq_self.mp same
    exact String.toList_eq_nil_iff.mp nothing

/-- A file in a directory, with its text; none when its bytes are no text. -/
structure NamedFile where
  name : String
  content : Option String

/-- What comes of reading an entry as a definition. -/
def DiskEntry.definition : DiskEntry → Except ConfigError Definition
  | .file (some text) => Definition.ofText text
  | .file none => .error (.file .notText)
  | .directory _ => .error (.file .isDirectory)

/-- The definition that a file describes. -/
def NamedFile.definition (file : NamedFile) : Except ConfigError Definition :=
  (DiskEntry.file file.content).definition

namespace Directory

/-- Each name is held once, and a path may lead through it. -/
structure Proper (directory : Directory) : Prop where
  distinct : (directory.map Prod.fst).Nodup
  named : ∀ entry ∈ directory, Disk.IsName entry.1

/-- These are the files of a directory whose names have the extension of definitions, in ascending
order of names. -/
structure Files (directory : Directory) (files : List NamedFile) : Prop where
  ascending : files.Pairwise fun first second => first.name < second.name
  mem_iff : ∀ file, file ∈ files ↔
    HasExtension file.name ∧ (file.name, .file file.content) ∈ directory

/-- The files with definitions, in the order in which they are listed. -/
def listedFiles (directory : Directory) : Directory :=
  directory.filter fun entry => entry.2.isFile && isDefinitionName entry.1

/-- The listed files are the entries that are files with the extension. -/
theorem mem_listedFiles {directory : Directory} {name : String} {entry : DiskEntry} :
    (name, entry) ∈ directory.listedFiles ↔
      (name, entry) ∈ directory ∧ entry.isFile = true ∧ HasExtension name := by
  rw [listedFiles, List.mem_filter, Bool.and_eq_true, isDefinitionName_iff]

/-- The names are put into ascending order by a table of the files. -/
theorem definitionFiles_eq (directory : Directory) :
    directory.definitionFiles = (Table.ofEntries directory.listedFiles).keys := rfl

/-- The definition files of a directory are named in ascending order. -/
theorem ascending_definitionFiles (directory : Directory) :
    directory.definitionFiles.Pairwise (· < ·) :=
  List.pairwise_map.mpr (Table.ofEntries_ordered directory.listedFiles)

/-- The definition files of a directory are its files with the extension. -/
theorem mem_definitionFiles {directory : Directory} (distinct : (directory.map Prod.fst).Nodup)
    {name : String} : name ∈ directory.definitionFiles ↔
      HasExtension name ∧ ∃ content, (name, .file content) ∈ directory := by
  have once : (directory.listedFiles.map Prod.fst).Nodup :=
    distinct.sublist (List.filter_sublist.map _)
  rw [definitionFiles_eq, Table.keys, (Table.keys_ofEntries once).mem_iff, List.mem_map]
  constructor
  · rintro ⟨⟨key, entry⟩, member, rfl⟩
    obtain ⟨listed, file, ends⟩ := mem_listedFiles.mp member
    cases entry with
    | file content => exact ⟨ends, content, listed⟩
    | directory entries => cases file
  · rintro ⟨ends, content, listed⟩
    exact ⟨(name, .file content), mem_listedFiles.mpr ⟨listed, rfl, ends⟩, rfl⟩

/-- The text of the file under a name. -/
def content (directory : Directory) (name : String) : Option String :=
  match Table.get? name directory with
  | some (.file content) => content
  | _ => none

/-- The names that are found are those of the files with definitions. -/
theorem Proper.exists_files {directory : Directory} (proper : directory.Proper) :
    ∃ files, directory.Files files ∧ files.map (·.name) = directory.definitionFiles := by
  have held (name : String) (content : Option String)
      (listed : (name, .file content) ∈ directory) : directory.content name = content := by
    rw [Directory.content, (Table.get?_eq_some_iff proper.distinct).mpr listed]
  refine ⟨directory.definitionFiles.map fun name => ⟨name, directory.content name⟩, ?_, ?_⟩
  · constructor
    · exact List.pairwise_map.mpr directory.ascending_definitionFiles
    · rintro ⟨name, content⟩
      rw [List.mem_map]
      constructor
      · rintro ⟨found, member, same⟩
        cases same
        obtain ⟨ends, content, listed⟩ := (mem_definitionFiles proper.distinct).mp member
        refine ⟨ends, ?_⟩
        rw [held _ content listed]
        exact listed
      · rintro ⟨ends, listed⟩
        refine ⟨name, (mem_definitionFiles proper.distinct).mpr ⟨ends, content, listed⟩, ?_⟩
        rw [held name content listed]
  · rw [List.map_map]
    exact List.map_id _

/-- A directory has only one list of its files. -/
theorem Files.unique {directory : Directory} {first second : List NamedFile}
    (one : directory.Files first) (other : directory.Files second) : first = second := by
  have nodup {files : List NamedFile} (shown : directory.Files files) : files.Nodup :=
    shown.ascending.imp fun {former latter} before same => by
      rw [same] at before
      exact String.lt_irrefl _ before
  have permuted : first.Perm second := by
    refine (List.perm_ext_iff_of_nodup (nodup one) (nodup other)).mpr fun file => ?_
    rw [one.mem_iff, other.mem_iff]
  refine permuted.eq_of_pairwise (fun former latter _ _ before after => ?_) one.ascending
    other.ascending
  exact absurd (String.lt_trans before after) (String.lt_irrefl _)

/-- The names that are found are those of the files. -/
theorem Files.names {directory : Directory} (proper : directory.Proper) {files : List NamedFile}
    (shown : directory.Files files) : files.map (·.name) = directory.definitionFiles := by
  obtain ⟨found, same, names⟩ := proper.exists_files
  rwa [shown.unique same]

/-- What is read at the path of an entry is the entry that is listed. -/
theorem Proper.reads {disk : Disk} {path : String} {directory : Directory}
    (proper : directory.Proper) (listed : disk.list path = .ok directory) {name : String}
    {entry : DiskEntry} (held : (name, entry) ∈ directory) :
    Definition.ofFile disk (Disk.inside path name) = entry.definition := by
  have located : disk.locate (Disk.inside path name) = .ok entry :=
    Disk.locate_inside listed (proper.named _ held)
      ((Table.get?_eq_some_iff proper.distinct).mpr held)
  rw [Definition.ofFile, Disk.read, located]
  cases entry with
  | file content => cases content <;> rfl
  | directory entries => rfl

/-- What is read under the name of a file in a proper directory is what the file defines. -/
theorem Proper.reads_files {disk : Disk} {path : String} {directory : Directory}
    (proper : directory.Proper) (listed : disk.list path = .ok directory) {files : List NamedFile}
    (shown : directory.Files files) (file : NamedFile) (member : file ∈ files) :
    Definition.ofFile disk (Disk.inside path file.name) = file.definition :=
  proper.reads listed ((shown.mem_iff file).mp member).2

end Directory

end Workflow
