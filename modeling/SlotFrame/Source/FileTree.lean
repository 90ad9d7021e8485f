import SlotFrame.Data.Text
import SlotFrame.Data.Utf8
import SlotFrame.Source.Basic

/-! # Trees of files

Directories and files held in memory below a working directory. What lies above it is a directory
without known entries.

Main definitions: `FileTree.ofList`, `FileTree.node`, `FileTree.read`, `FileTree.write`. -/

namespace SlotFrame

/-- Why a file cannot be read or written. -/
inductive FileFault where
  | missing
  | notDirectory
  | isDirectory
  | nameTooLong
  | notText
  | zeroByte
  deriving DecidableEq, Repr

/-- The wording of a fault. -/
def FileFault.message : FileFault → String
  | missing => "No such file or directory (os error 2)"
  | notDirectory => "Not a directory (os error 20)"
  | isDirectory => "Is a directory (os error 21)"
  | nameTooLong => "File name too long (os error 36)"
  | notText => "stream did not contain valid UTF-8"
  | zeroByte => "file name contained an unexpected NUL byte"

/-- A file with its bytes, or a directory. -/
inductive FileNode where
  | file (bytes : List UInt8)
  | directory
  deriving DecidableEq, Repr

/-- Files and directories under their names from the working directory on. -/
structure FileTree where
  entries : List (List String × FileNode)
  deriving Repr, Inhabited

/-- Where a path has led to so far: names below the working directory, or somewhere above it. -/
inductive FilePlace where
  | inside (names : List String)
  | outside
  deriving DecidableEq, Repr

namespace FileTree

/-- The names that a relative path is made of. -/
def namesOf (path : String) : List String :=
  ((splitAll '/' path.toList).map String.ofList).filter fun n => n ≠ "" ∧ n ≠ "."

/-- A tree of files under their paths. -/
def ofList (files : List (String × FileNode)) : FileTree :=
  ⟨files.map fun e => (namesOf e.1, e.2)⟩

/-- What stands at a place: an entry, or a directory that leads to one. -/
def at? (t : FileTree) (names : List String) : Option FileNode :=
  if names.isEmpty then some .directory
  else match t.entries.reverse.find? fun e => e.1 = names with
    | some e => some e.2
    | none => if t.entries.any fun e => names.isPrefixOf e.1 then some .directory else none

/-- Follows one name from a place that must be a directory. -/
def step (t : FileTree) (place : FilePlace) (name : String) : Except FileFault FilePlace :=
  match place with
  | .outside => if name = "" ∨ name = "." ∨ name = ".." then .ok .outside else .error .missing
  | .inside names =>
    match t.at? names with
    | none => .error .missing
    | some (.file _) => .error .notDirectory
    | some .directory =>
      if name = "" ∨ name = "." then .ok (.inside names)
      else if name = ".." then
        .ok (if names.isEmpty then .outside else .inside names.dropLast)
      else if 255 < name.utf8ByteSize then .error .nameTooLong
      else .ok (.inside (names ++ [name]))

/-- The place that a path leads to. -/
def place (t : FileTree) (path : String) : Except FileFault FilePlace :=
  if path.isEmpty then .error .missing
  else if path.toList.contains '\x00' then .error .zeroByte
  else
    let start := if startsWith path "/" then FilePlace.outside else .inside []
    ((splitAll '/' path.toList).map String.ofList).foldlM t.step start

/-- The file or directory that a path leads to. -/
def node (t : FileTree) (path : String) : Except FileFault FileNode := do
  match ← t.place path with
  | .outside => return .directory
  | .inside names =>
    match t.at? names with
    | some n => return n
    | none => .error .missing

/-- Whether a path leads to anything. -/
def contains (t : FileTree) (path : String) : Bool := (t.node path).isOk

/-- The text of a file. -/
def read (t : FileTree) (path : String) : Except FileFault String := do
  match ← t.node path with
  | .directory => .error .isDirectory
  | .file bytes => match utf8Text? bytes with
    | some s => return s
    | none => .error .notText

/-- The tree after a file is written. -/
def write (t : FileTree) (path text : String) : Except FileFault FileTree := do
  match ← t.place path with
  | .outside => .error .isDirectory
  | .inside names =>
    match t.at? names with
    | some .directory => .error .isDirectory
    | _ =>
      match t.at? names.dropLast with
      | some .directory => return ⟨t.entries ++ [(names, .file (utf8Bytes text.toList))]⟩
      | some (.file _) => .error .notDirectory
      | none => .error .missing

end FileTree

end SlotFrame
