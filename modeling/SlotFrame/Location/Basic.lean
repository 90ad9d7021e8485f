import SlotFrame.Fault
import SlotFrame.Location.FilePath
import SlotFrame.Location.Url
import SlotFrame.Schema.Read

/-! # Locations of documents

A document lies in a file or behind a URL.

Main definitions: `Location.read`, `Location.withExtension`, `Location.sibling`,
`Location.render`. -/

namespace SlotFrame

/-- Where a document lies. -/
inductive Location where
  | file (path : String)
  | url (url : Url)
  deriving DecidableEq, Repr

namespace Location

/-- The path of a file that a URL names; none if the file lies on another machine. -/
def localPath? (u : Url) : Option String :=
  if u.host = none ∨ u.host = some "" ∨ u.host = some "localhost" then
    let path := utf8Lossy (Percent.decode u.path.render.toList)
    match path.toList.reverse with
    | m :: c :: _ :: _ => some (if c.isAlpha && (m = ':' || m = '|') then path ++ "/" else path)
    | _ => some path
  else none

/-- The URL that a text writes. -/
def readUrl (text : String) : Result Url :=
  (Url.read text none).mapError fun f =>
    .parse ("Invalid URL '" ++ text ++ "': " ++ f.message)

/-- Reads a text as a URL of the web or of a file, or else as a path. -/
def read (text : String) : Result Location := do
  if startsWith text "http://" || startsWith text "https://" then
    return url (← readUrl text)
  else if startsWith text "file://" then
    let u ← readUrl text
    match localPath? u with
    | some path => return file path
    | none => throw (.parse ("Not a local file URL: " ++ text))
  else return file text

/-- A location as it is written. -/
def render : Location → String
  | file path => path
  | url u => u.render

/-- The path to the document. -/
def path : Location → String
  | file path => path
  | url u => u.path.render

/-- The format that the extension stands for. -/
def format (l : Location) : Format :=
  match FilePath.extension? l.path with
  | some ext => if ext.toLower = "json" then .json else .yaml
  | none => .yaml

/-- Whether the last name of the path has an extension. -/
def hasExtension (l : Location) : Bool := (FilePath.extension? l.path).isSome

/-- The same with an extension added. -/
def withExtension (l : Location) (ext : String) : Location :=
  match l with
  | file path => file (path ++ "." ++ ext)
  | url u => url (u.withPath (u.path.render ++ "." ++ ext))

/-- A reference read beside a location. -/
def sibling (l : Location) (reference : String) : Result Location :=
  match l with
  | file path => .ok (file (FilePath.join ((FilePath.parent? path).getD "") reference))
  | url u => match u.join reference with
    | .ok v => .ok (url v)
    | .error f => .error (.parse
        ("Cannot resolve '" ++ reference ++ "' against " ++ u.render ++ ": " ++ f.message))

end Location

end SlotFrame
