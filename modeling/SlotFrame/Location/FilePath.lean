import SlotFrame.Data.Text

/-! # File paths

A path is a text of names between slashes. Empty names and single dots count for nothing, except for
a dot in front, and two dots are no name of a file.

Main definitions: `FilePath.fileName?`, `FilePath.extension?`, `FilePath.parent?`,
`FilePath.join`. -/

namespace SlotFrame.FilePath

/-- The root or the dot in front of a path, and the names after it. -/
def split (path : List Char) : List Char × List (List Char) :=
  match path with
  | '/' :: rest => (['/'], splitAll '/' rest)
  | ['.'] => (['.'], [[]])
  | '.' :: '/' :: rest => (['.'], [] :: splitAll '/' rest)
  | _ => ([], splitAll '/' path)

/-- Names without those at the end that count for nothing. -/
def trimNames (names : List (List Char)) : List (List Char) :=
  (names.reverse.dropWhile fun n => n = [] ∨ n = ['.']).reverse

/-- The name of the file that a path leads to. -/
def fileName? (path : String) : Option (List Char) :=
  match (trimNames (split path.toList).2).getLast? with
  | some name => if name = ['.', '.'] then none else some name
  | none => none

/-- What follows the last dot of the file name, unless nothing stands before it. -/
def extension? (path : String) : Option String := do
  let name ← fileName? path
  let ending := (name.reverse.takeWhile (· ≠ '.')).reverse
  if name.length ≤ ending.length + 1 then none else some (String.ofList ending)

/-- The path of the directory that holds what a path leads to. -/
def parent? (path : String) : Option String :=
  let (front, names) := split path.toList
  match trimNames names with
  | [] => if front = ['.'] then some "" else none
  | names => some (String.ofList (front ++
      (['/'] : List Char).intercalate (trimNames names.dropLast)))

/-- A path read against a directory; one from the root stands for itself. -/
def join (dir path : String) : String :=
  if startsWith path "/" then path
  else if dir.isEmpty || endsWith dir "/" then dir ++ path
  else dir ++ "/" ++ path

end SlotFrame.FilePath
