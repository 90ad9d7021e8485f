import SlotFrame.Fault
import SlotFrame.Data.Letters
import SlotFrame.Data.Text

/-! # Namespaces

A table from prefixes to namespaces. Besides prefixes it may hold two reserved entries: the default
namespace, which stands for `:local`, and the base namespace, which stands for a bare `local`. No
prefix can be a reserved name, since a prefix begins with a letter or an underscore.

Main definitions: `isNcName`, `Namespaces.set`, `Namespaces.curieFor?`, `Namespaces.uriFor`,
`Namespaces.addContext`. -/

namespace SlotFrame

/-! ### Names of prefixes -/

/-- The characters that may begin a prefix. -/
def isNcNameStart (c : Char) : Bool := isLetter c || c = '_'

/-- The characters that may continue a prefix. -/
def isNcNameChar (c : Char) : Bool :=
  isLetter c || isNumeral c || c = '_' || c = '.' || c = '-' || c = '\xb7' ||
    (0x300 ≤ c.toNat && c.toNat ≤ 0x36f) || c.toNat = 0x203f || c.toNat = 0x2040

/-- Whether a text can be a prefix. -/
def isNcName (s : String) : Bool :=
  match s.toList with
  | [] => false
  | c :: rest => isNcNameStart c && rest.all isNcNameChar

/-! ### The table -/

/-- A table of namespaces, reserved entries among them. -/
@[ext] structure Namespaces where
  entries : Table String
  deriving Repr, Inhabited, DecidableEq

namespace Namespaces

/-- The reserved name of the default namespace. -/
def defaultName : String := "@default"

/-- The reserved name of the base namespace. -/
def baseName : String := "@base"

/-- Whether a name is reserved. -/
def isReserved (name : String) : Bool := name = defaultName || name = baseName

/-- The table without entries. -/
def empty : Namespaces := ⟨∅⟩

/-- A fault of the table. -/
def fault {α : Type} (message : String) : Result α := .error (.namespaces message)

/-- Maps a prefix to a namespace unless it is mapped already. -/
def set (t : Namespaces) (name uri : String) : Result Namespaces :=
  if isNcName name then .ok ⟨t.entries.insertNew name uri⟩
  else fault ("Invalid NCName: " ++ name)

/-- The namespace under a name, reserved or not. -/
def get (t : Namespaces) (name : String) : Result String :=
  match t.entries.get? name with
  | some uri => .ok uri
  | none => fault ("Key does not exist: " ++ name)

/-- Whether a name, reserved or not, is mapped. -/
def contains (t : Namespaces) (name : String) : Bool := t.entries.contains name

/-- The prefixes with their namespaces. -/
def prefixes (t : Namespaces) : List (String × String) :=
  t.entries.entries.filter fun e => ! isReserved e.1

/-- The default namespace. -/
def default? (t : Namespaces) : Option String := t.entries.get? defaultName

/-- The base namespace. -/
def base? (t : Namespaces) : Option String := t.entries.get? baseName

/-- Writes a reserved entry, which may be written again only with what it holds. -/
def setReserved (t : Namespaces) (name label uri : String) : Result Namespaces :=
  match t.entries.get? name with
  | some there => if there = uri then .ok t else fault (label ++ " is already set to " ++ there)
  | none => .ok ⟨t.entries.insert name uri⟩

/-- Sets the default namespace. -/
def setDefault (t : Namespaces) (uri : String) : Result Namespaces :=
  t.setReserved defaultName "Default" uri

/-- Sets the base namespace. -/
def setBase (t : Namespaces) (uri : String) : Result Namespaces :=
  t.setReserved baseName "Base" uri

/-- Forgets the default namespace. -/
def clearDefault (t : Namespaces) : Namespaces := ⟨t.entries.erase defaultName⟩

/-- Forgets the base namespace. -/
def clearBase (t : Namespaces) : Namespaces := ⟨t.entries.erase baseName⟩

/-! ### Contraction and expansion -/

/-- Whether an entry contracts a text. -/
def isEligible (uri : String) (defaultOk : Bool) (e : String × String) : Bool :=
  startsWith uri e.2 && (defaultOk || ! isReserved e.1)

/-- Whether an entry contracts better than another: by a longer namespace, or with one as long by
being a prefix where the other is reserved. -/
def isBetter (e best : String × String) : Bool :=
  best.2.length < e.2.length ||
    (e.2.length = best.2.length && isReserved best.1 && ! isReserved e.1)

/-- The best of the entries, the first of those that are equally good. -/
def bestOf (entries : List (String × String)) : Option (String × String) :=
  entries.foldl (fun best e => match best with
    | none => some e
    | some b => if isBetter e b then some e else some b) none

/-- How a local name is written below an entry. -/
def curieOf (name localName : String) : String :=
  if name = defaultName then ":" ++ localName
  else if name = baseName then localName
  else name ++ ":" ++ localName

/-- Whether a text has a colon, but none before a slash: it is contracted already. -/
def looksContracted (uri : String) : Bool := occurs ":" uri && ! occurs ":/" uri

/-- Contracts a text by the best entry that its namespace begins. -/
def curieFor? (t : Namespaces) (uri : String) (defaultOk : Bool) : Result (Option String) :=
  if looksContracted uri then fault ("Not a valid URI: " ++ uri)
  else .ok ((bestOf (t.entries.entries.filter (isEligible uri defaultOk))).map fun e =>
    curieOf e.1 (dropChars e.2.length uri))

/-- Contracts a text by any entry; what cannot be contracted has no short form. -/
def abbreviate? (t : Namespaces) (uri : String) : Option String :=
  match t.curieFor? uri true with
  | .ok short => short
  | .error _ => none

/-- The name and the local part that a contracted text is made of. -/
def parts (curie : String) : Result (String × String) :=
  match splitAtFirst ':' curie.toList with
  | some ([], rest) => .ok (defaultName, String.ofList rest)
  | some (name, rest) =>
    if isNcName (String.ofList name) then .ok (String.ofList name, String.ofList rest)
    else fault ("Not a valid CURIE: " ++ curie)
  | none => .ok (baseName, curie)

/-- Expands a contracted text; a text with `://` is left as it is. -/
def uriFor (t : Namespaces) (curie : String) : Result String := do
  if occurs "://" curie then return curie
  let (name, localName) ← parts curie
  match t.entries.get? name with
  | some uri => return uri ++ localName
  | none => fault ("Unknown CURIE prefix: " ++ name)

end Namespaces

/-! ### Contexts -/

/-- A map of prefixes: each value is a namespace, or a record that holds one under `@id`. -/
abbrev PrefixMap := Table Value

/-- The namespace that a value of a prefix map gives. -/
def contextUri? : Value → Option String
  | .text uri => some uri
  | .record fields => (lookupKey "@id" fields).bind Value.text?
  | _ => none

namespace Namespaces

/-- Adds one entry of a prefix map: the empty name sets the default namespace if that is wanted and
there is none, and a prefix is added unless it is mapped already. -/
def addEntry (includeDefaults : Bool) (t : Namespaces) (name : String) (value : Value) : Namespaces :=
  match contextUri? value with
  | none => t
  | some uri =>
    if name.isEmpty then
      if includeDefaults then ⟨t.entries.insertNew defaultName uri⟩ else t
    else if isNcName name then ⟨t.entries.insertNew name uri⟩
    else t

/-- Adds the entries of a prefix map, in order. -/
def addContext (t : Namespaces) (context : PrefixMap) (includeDefaults : Bool) : Namespaces :=
  context.entries.foldl (fun t e => t.addEntry includeDefaults e.1 e.2) t

end Namespaces

end SlotFrame
