import Workflow.ConfigError
import Workflow.Table
import Workflow.Text.Parts

/-!
# Disks

A disk is a tree of directories with files, and one of its directories is the current one. A path
is a sequence of names with slashes between them. It begins at the current directory, or at the
outermost one if it begins with a slash. Empty names and single dots stay where they are, two dots
go back.
-/
namespace Workflow

/-- What lies at a place of a disk. -/
inductive DiskEntry where
  /-- A file with its text; none when its bytes are no text. -/
  | file (content : Option String)
  | directory (entries : List (String × DiskEntry))
deriving Repr

/-- The entries of a directory, in the order in which it lists them. -/
abbrev Directory := Table DiskEntry

/-- A disk. -/
structure Disk where
  root : Directory
  /-- The names that lead to the current directory. -/
  current : List String

/-- A directory of a disk and the way to it. -/
structure DiskPlace where
  /-- The names that lead there, the last one first. -/
  names : List String
  /-- The entries of the directories on the way, the innermost first. -/
  outer : List Directory
  /-- The entries of the directory. -/
  entries : Directory

/-- An entry is a file. -/
def DiskEntry.isFile : DiskEntry → Bool
  | .file _ => true
  | .directory _ => false

namespace Disk

/-- A disk without files, on which the current directory exists. -/
def empty (current : List String) : Disk where
  root := current.foldr (fun name inner => [(name, .directory inner)]) []
  current := current

/-- The names in a path. -/
def parts (path : String) : List String :=
  let (first, others) := Text.splitAt '/' path.toList
  (first :: others).map String.ofList

/-- A path begins at the outermost directory. -/
def isAbsolute (path : String) : Bool := path.toList.head? = some '/'

/-- Follow names from a directory. A file is only found at the end. -/
def walk (place : DiskPlace) : List String → Except FileFault (DiskPlace × Option DiskEntry)
  | [] => .ok (place, none)
  | part :: rest =>
    if part = "" ∨ part = "." then walk place rest
    else if part = ".." then
      match place.names, place.outer with
      | _ :: names, entries :: outer => walk ⟨names, outer, entries⟩ rest
      | _, _ => walk place rest
    else
      match Table.get? part place.entries with
      | none => .error .missing
      | some (.directory entries) =>
        walk ⟨part :: place.names, place.entries :: place.outer, entries⟩ rest
      | some (.file content) =>
        if rest.isEmpty then .ok (place, some (.file content)) else .error .notDirectory

/-- The names to follow from the outermost directory for a path. -/
def namesFromRoot (disk : Disk) (path : String) : List String :=
  if isAbsolute path then parts path else disk.current ++ parts path

/-- The outermost directory. -/
def rootPlace (disk : Disk) : DiskPlace := ⟨[], [], disk.root⟩

/-- What lies at a path. An empty path leads nowhere. -/
def locate (disk : Disk) (path : String) : Except FileFault DiskEntry :=
  if path.isEmpty then .error .missing
  else
    match walk disk.rootPlace (disk.namesFromRoot path) with
    | .ok (_, some entry) => .ok entry
    | .ok (place, none) => .ok (.directory place.entries)
    | .error fault => .error fault

/-- There is a file at a path. -/
def isFile (disk : Disk) (path : String) : Bool :=
  match disk.locate path with
  | .ok (.file _) => true
  | _ => false

/-- The text of the file at a path. -/
def read (disk : Disk) (path : String) : Except FileFault String :=
  match disk.locate path with
  | .ok (.file (some content)) => .ok content
  | .ok (.file none) => .error .notText
  | .ok (.directory _) => .error .isDirectory
  | .error fault => .error fault

/-- The entries of the directory at a path. -/
def list (disk : Disk) (path : String) : Except FileFault Directory :=
  match disk.locate path with
  | .ok (.directory entries) => .ok entries
  | .ok (.file _) => .error .notDirectory
  | .error fault => .error fault

/-- Put an entry under a name into the directory that names lead to, making directories that are
missing. -/
def putIn (entry : DiskEntry) (name : String) : List String → Directory → Directory
  | [], entries => Table.set name entry entries
  | directory :: rest, entries =>
    let inner := match Table.get? directory entries with
      | some (.directory inner) => inner
      | _ => []
    Table.set directory (.directory (putIn entry name rest inner)) entries

/-- Write a text into the file at a path. The directory of the file must be there. -/
def write (disk : Disk) (path content : String) : Except FileFault Disk :=
  let names := disk.namesFromRoot path
  let name := names.getLast?.getD ""
  if path.isEmpty then .error .missing
  else
    match walk disk.rootPlace names.dropLast with
    | .error fault => .error fault
    | .ok (_, some _) => .error .notDirectory
    | .ok (place, none) =>
      if name ∈ ["", ".", ".."] then .error .isDirectory
      else
        match Table.get? name place.entries with
        | some (.directory _) => .error .isDirectory
        | _ =>
          .ok { disk with
            root := putIn (.file (some content)) name place.names.reverse disk.root }

/-- Names without those that stay where they are or go back. -/
def plainNames (names : List String) : List String :=
  names.foldl (fun way name =>
    if name ∈ ["", "."] then way else if name = ".." then way.dropLast else way ++ [name]) []

/-- Put an entry at a path, making directories that are missing. -/
def place (disk : Disk) (path : String) (entry : DiskEntry) : Disk :=
  let names := plainNames (disk.namesFromRoot path)
  match names.getLast? with
  | none => disk
  | some name => { disk with root := putIn entry name names.dropLast disk.root }

/-- Make a directory at a path, unless there is one. -/
def makeDirectory (disk : Disk) (path : String) : Disk :=
  match disk.list path with
  | .ok _ => disk
  | .error _ => disk.place path (.directory [])

end Disk

/-! ## Files with definitions -/

/-- The extension of files with definitions. -/
def definitionExtension : List Char := ".toml".toList

/-- A name ends in the extension of definitions, with something before it. -/
def isDefinitionName (name : String) : Bool :=
  definitionExtension.isSuffixOf name.toList && name.toList ≠ definitionExtension

namespace Directory

/-- The names that end in the extension of definitions, those of directories included, in the order
in which they are listed. -/
def definitionNames (directory : Directory) : List String :=
  (Table.keys directory).filter isDefinitionName

/-- The names of the files that end in the extension of definitions, in ascending order. -/
def definitionFiles (directory : Directory) : List String :=
  let files := directory.filter fun entry => entry.2.isFile && isDefinitionName entry.1
  Table.keys (files.foldl (fun table entry => Table.set entry.1 entry.2 table) [])

end Directory

end Workflow
