import SlotFrame.Location.Host

/-! # URLs

A URL is read by the rules of its scheme: the special schemes always have a host and a path of
segments, and take a backslash for a slash; other URLs may have neither, and then their path is a
text as it stands. A reference is read against a base.

Main definitions: `Url.read`, `Url.join`, `Url.withPath`, `Url.render`. -/

namespace SlotFrame

/-- The path of a URL. -/
inductive UrlPath where
  /-- A text as it stands, of a URL that no reference can be read against. -/
  | rootless (text : String)
  | segments (parts : List String)
  deriving DecidableEq, Repr

/-- A URL. -/
structure Url where
  scheme : String
  user : String := ""
  password : String := ""
  host : Option String := none
  port : Option Nat := none
  path : UrlPath
  query : Option String := none
  fragment : Option String := none
  deriving DecidableEq, Repr

namespace UrlPath

/-- A path as it is written. -/
def render : UrlPath → String
  | rootless text => text
  | segments parts => String.join (parts.map ("/" ++ ·))

/-- The segments; none if the path is a text as it stands. -/
def parts : UrlPath → List String
  | rootless _ => []
  | segments parts => parts

end UrlPath

namespace Url

/-! ### Schemes -/

/-- Whether a scheme is special. -/
def isSpecial (scheme : String) : Bool :=
  ["http", "https", "ws", "wss", "ftp", "file"].contains scheme

/-- The port that a scheme has by itself. -/
def defaultPort? (scheme : String) : Option Nat :=
  if scheme = "http" ∨ scheme = "ws" then some 80
  else if scheme = "https" ∨ scheme = "wss" then some 443
  else if scheme = "ftp" then some 21
  else none

/-- Whether a character divides segments. -/
def isSlash (special : Bool) (c : Char) : Bool := c = '/' || (special && c = '\\')

/-- Whether a character ends the part before the query. -/
def endsPath (c : Char) : Bool := c = '?' || c = '#'

/-- The characters of a text that count: none of those around it that are blank, no breaks. -/
def significant (s : String) : List Char :=
  let isEdge (c : Char) : Bool := c.toNat ≤ 0x20
  (trimEnd isEdge (s.toList.dropWhile isEdge)).filter fun c => c ≠ '\t' ∧ c ≠ '\n' ∧ c ≠ '\r'

/-- The scheme that a text begins with, and what follows the colon. -/
def splitScheme (cs : List Char) : Option (String × List Char) :=
  match cs with
  | c :: _ =>
    if c.isAlpha then
      let name := cs.takeWhile fun c => c.isAlphanum || c = '+' || c = '-' || c = '.'
      match cs.drop name.length with
      | ':' :: rest => some (String.ofList (name.map Char.toLower), rest)
      | _ => none
    else none
  | [] => none

/-! ### Paths -/

/-- Whether a segment stands for a drive: a letter and a colon or a bar. -/
def isDrive (s : List Char) : Bool :=
  match s with
  | [c, m] => c.isAlpha && (m = ':' || m = '|')
  | _ => false

/-- Whether a segment stands for a drive and is written with a colon. -/
def isPlainDrive (s : String) : Bool := isDrive s.toList && s.toList.getLast? = some ':'

/-- Whether a segment stands for the directory itself. -/
def isDot (s : String) : Bool := [".", "%2e"].contains s.toLower

/-- Whether a segment stands for the directory above. -/
def isDotDot (s : String) : Bool := ["..", ".%2e", "%2e.", "%2e%2e"].contains s.toLower

/-- Segments without the last, unless that is the drive of a file. -/
def shorten (scheme : String) (parts : List String) : List String :=
  match parts with
  | [p] => if scheme = "file" && isPlainDrive p then [p] else []
  | _ => parts.dropLast

/-- The pieces between slashes. -/
def pieces (special : Bool) : List Char → List (List Char)
  | [] => [[]]
  | c :: rest =>
    if isSlash special c then [] :: pieces special rest
    else match pieces special rest with
      | p :: ps => (c :: p) :: ps
      | [] => [[c]]

/-- Appends a piece of a path to its segments. -/
def addPiece (scheme : String) (parts : List String) (piece : List Char) (isLast : Bool) :
    List String :=
  let s := String.ofList (Percent.encode Percent.path piece)
  if isDotDot s then
    let shorter := shorten scheme parts
    if isLast then shorter ++ [""] else shorter
  else if isDot s then if isLast then parts ++ [""] else parts
  else if scheme = "file" && parts.isEmpty && isDrive piece then
    [String.ofList (piece.take 1 ++ [':'])]
  else parts ++ [s]

/-- Appends the pieces of a path to its segments. -/
def addPieces (scheme : String) : List String → List (List Char) → List String
  | parts, [] => parts
  | parts, [p] => addPiece scheme parts p true
  | parts, p :: ps => addPieces scheme (addPiece scheme parts p false) ps

/-- The segments of a path that goes on after some segments. A file's path begins with no empty
segment if it has another. -/
def readPath (scheme : String) (base : List String) (cs : List Char) : UrlPath :=
  let parts := addPieces scheme base (pieces (isSpecial scheme) cs)
  if scheme = "file" then
    match parts.dropWhile String.isEmpty with
    | [] => .segments [""]
    | ps => .segments ps
  else .segments parts

/-- The path of a URL with a host. -/
def pathStart (scheme : String) (cs : List Char) : UrlPath :=
  match cs with
  | [] => if isSpecial scheme then .segments [""] else .segments []
  | c :: rest =>
    if isSlash (isSpecial scheme) c then readPath scheme [] rest else readPath scheme [] cs

/-! ### Queries and fragments -/

/-- The query and the fragment of what follows a path. -/
def readTail (scheme : String) (cs : List Char) : Option String × Option String :=
  let set := if isSpecial scheme then Percent.specialQuery else Percent.query
  let fragmentOf (cs : List Char) : String := String.ofList (Percent.encode Percent.fragment cs)
  match cs with
  | '?' :: rest =>
    let query := String.ofList (Percent.encode set (rest.takeWhile (· ≠ '#')))
    match rest.dropWhile (· ≠ '#') with
    | _ :: f => (some query, some (fragmentOf f))
    | [] => (some query, none)
  | '#' :: rest => (none, some (fragmentOf rest))
  | _ => (none, none)

/-- A URL with the query and the fragment of what follows its path. -/
def withTail (u : Url) (cs : List Char) : Url :=
  let (query, fragment) := readTail u.scheme cs
  { u with query, fragment }

/-- Splits what stands before the query off. -/
def spanPath (cs : List Char) : List Char × List Char := cs.span fun c => ! endsPath c

/-! ### Authorities -/

/-- What stands before and after the last occurrence of a character. -/
def splitAtLast (c : Char) (cs : List Char) : Option (List Char × List Char) :=
  (splitAtFirst c cs.reverse).map fun (after, before) => (before.reverse, after.reverse)

/-- The host of an authority ends at the first colon outside brackets. -/
def spanHost : Bool → List Char → List Char × List Char
  | _, [] => ([], [])
  | inside, c :: rest =>
    if c = ':' && ! inside then ([], c :: rest)
    else
      let (host, rest) := spanHost (if c = '[' then true else if c = ']' then false else inside) rest
      (c :: host, rest)

/-- The port after a colon; none if it is left out or the scheme's own. -/
def readPort (scheme : String) (cs : List Char) : Except UrlFault (Option Nat) :=
  match cs with
  | ':' :: digits =>
    if ! digits.all Char.isDigit then .error .port
    else
      let n := digits.foldl (fun n c => n * 10 + (c.toNat - 48)) 0
      if 65535 < n then .error .port
      else if digits.isEmpty ∨ defaultPort? scheme = some n then .ok none
      else .ok (some n)
  | _ => .ok none

/-- The name and the password before a host. -/
def readUser (cs : List Char) : String × String :=
  let encode (cs : List Char) : String := String.ofList (Percent.encode Percent.userInfo cs)
  match splitAtFirst ':' cs with
  | some (name, password) => (encode name, encode password)
  | none => (encode cs, "")

/-- A host that may be empty only outside the special schemes. -/
def readHost (scheme : String) (cs : List Char) : Except UrlFault String :=
  if isSpecial scheme then
    if cs.isEmpty then .error .emptyHost else Host.special cs
  else Host.general cs

/-- A URL after the two slashes that begin its authority. -/
def readAuthority (scheme : String) (cs : List Char) : Except UrlFault Url := do
  let (authority, rest) :=
    cs.span fun c => ! endsPath c && ! isSlash (isSpecial scheme) c
  let (credentials, place) ← match splitAtLast '@' authority with
    | some ([], place) => if place.isEmpty && ! rest.isEmpty then .error .emptyHost else .ok ([], place)
    | some (credentials, place) => .ok (credentials, place)
    | none => .ok ([], authority)
  let (user, password) := readUser credentials
  let (hostText, portText) := spanHost false place
  let host ← readHost scheme hostText
  if host.isEmpty && (! portText.isEmpty || ! user.isEmpty || ! password.isEmpty) then
    throw .emptyHost
  let port ← readPort scheme portText
  let (path, tail) := spanPath rest
  return withTail { scheme, user, password, host, port, path := pathStart scheme path } tail

/-! ### Files -/

/-- Whether a text begins with a drive as a segment. -/
def startsWithDrive (cs : List Char) : Bool :=
  isDrive (cs.take 2) && ((cs.drop 2).head?.all fun c => isSlash true c || endsPath c)

/-- The host of a file: none for a drive, and the own machine has no name. -/
def readFileHost (cs : List Char) : Except UrlFault (String × List Char) :=
  let (host, rest) := cs.span fun c => ! endsPath c && ! isSlash true c
  if isDrive host then .ok ("", cs)
  else if host.isEmpty then .ok ("", rest)
  else do
    let h ← Host.special host
    return (if h = "localhost" then "" else h, rest)

/-- The URL of a file, after the colon of its scheme. -/
def readFile (base : Option Url) (cs : List Char) : Except UrlFault Url := do
  let blank : Url := { scheme := "file", host := some "", path := .segments [""] }
  match cs with
  | a :: b :: rest =>
    if isSlash true a && isSlash true b then
      let (host, rest) ← readFileHost rest
      let (path, tail) := spanPath rest
      let path := pathStart "file" path
      let host := if (path.parts.head?.map isPlainDrive).getD false then "" else host
      return withTail { blank with host := some host, path } tail
    else return relative blank cs
  | _ => return relative blank cs
where
  /-- A path from the root of the base, or beside it. -/
  relative (blank : Url) (cs : List Char) : Url :=
    let base := base.getD blank
    match cs with
    | [] => { base with fragment := none }
    | c :: rest =>
      let (path, tail) := spanPath cs
      if isSlash true c then
        let root := match base.path.parts.head? with
          | some p => if isPlainDrive p && ! startsWithDrive rest then [p] else []
          | none => []
        withTail { base with path := readPath "file" root (path.drop 1) } tail
      else if c = '?' then withTail base cs
      else if c = '#' then { base with fragment := (readTail "file" cs).2 }
      else if startsWithDrive cs then
        withTail { blank with path := readPath "file" [] path } tail
      else withTail { base with path := readPath "file" (shorten "file" base.path.parts) path } tail

/-! ### Reading -/

/-- A reference that stands below its base. -/
def readRelative (base : Url) (cs : List Char) : Except UrlFault Url :=
  let special := isSpecial base.scheme
  match cs with
  | [] => .ok { base with fragment := none }
  | c :: rest =>
    if isSlash special c then
      match rest with
      | d :: rest' =>
        if isSlash special d then
          readAuthority base.scheme (if special then rest'.dropWhile (isSlash true) else rest')
        else .ok (rooted rest)
      | [] => .ok (rooted rest)
    else if c = '?' then .ok (withTail base cs)
    else if c = '#' then .ok { base with fragment := (readTail base.scheme cs).2 }
    else
      let (path, tail) := spanPath cs
      .ok (withTail { base with path := readPath base.scheme base.path.parts.dropLast path } tail)
where
  /-- A path from the root of the base. -/
  rooted (rest : List Char) : Url :=
    let (path, tail) := spanPath rest
    withTail { base with path := readPath base.scheme [] path } tail

/-- A URL after the colon of its scheme. -/
def readAfterScheme (scheme : String) (base : Option Url) (cs : List Char) : Except UrlFault Url :=
  if scheme = "file" then readFile (base.filter fun b => b.scheme = "file") cs
  else if isSpecial scheme then
    let slashes := cs.takeWhile (isSlash true)
    match base with
    | some b =>
      if b.scheme = scheme ∧ slashes.length < 2 then readRelative b cs
      else readAuthority scheme (cs.drop slashes.length)
    | none => readAuthority scheme (cs.drop slashes.length)
  else match cs with
    | '/' :: '/' :: rest => readAuthority scheme rest
    | '/' :: rest =>
      let (path, tail) := spanPath rest
      .ok (withTail { scheme, path := readPath scheme [] path } tail)
    | _ =>
      let (path, tail) := spanPath cs
      .ok (withTail
        { scheme, path := .rootless (String.ofList (Percent.encode Percent.control path)) } tail)

/-- Reads a text as a URL, against a base if there is one. -/
def read (text : String) (base : Option Url) : Except UrlFault Url :=
  let cs := significant text
  match splitScheme cs with
  | some (scheme, rest) => readAfterScheme scheme base rest
  | none =>
    match base with
    | none => .error .noBase
    | some b =>
      match b.path, cs with
      | _, '#' :: _ => .ok { b with fragment := (readTail b.scheme cs).2 }
      | .rootless _, _ => .error .rootlessBase
      | .segments _, _ => if b.scheme = "file" then readFile (some b) cs else readRelative b cs

/-- Reads a reference against a URL. -/
def join (u : Url) (reference : String) : Except UrlFault Url := read reference (some u)

/-! ### Writing -/

/-- The name and the password before a host, as they are written. -/
def renderUser (u : Url) : String :=
  if u.user.isEmpty && u.password.isEmpty then ""
  else u.user ++ (if u.password.isEmpty then "" else ":" ++ u.password) ++ "@"

/-- What stands between the scheme and the path. -/
def renderAuthority (u : Url) : String :=
  match u.host with
  | some h => "//" ++ u.renderUser ++ h ++
      (match u.port with
        | some p => ":" ++ toString p
        | none => "")
  | none =>
    match u.path.parts with
    | "" :: _ :: _ => "/."
    | _ => ""

/-- A URL as it is written. -/
def render (u : Url) : String :=
  u.scheme ++ ":" ++ u.renderAuthority ++ u.path.render ++
    (match u.query with
      | some q => "?" ++ q
      | none => "") ++
    (match u.fragment with
      | some f => "#" ++ f
      | none => "")

/-- The same with another path. -/
def withPath (u : Url) (path : String) : Url :=
  let cs := path.toList.filter fun c => c ≠ '\t' ∧ c ≠ '\n' ∧ c ≠ '\r'
  match u.path with
  | .segments _ => { u with path := pathStart u.scheme cs }
  | .rootless _ =>
    let text := match cs with
      | '/' :: rest => '%' :: '2' :: 'F' :: Percent.encode Percent.control rest
      | _ => Percent.encode Percent.control cs
    { u with path := .rootless (String.ofList text) }

/-- The same without a name and a password. -/
def withoutUser (u : Url) : Url := { u with user := "", password := "" }

end Url

end SlotFrame
