import SlotFrame.Config.Basic
import SlotFrame.Source.Basic

/-! # Resolving imports

A reference is turned into a location: by the map of references, by expanding it where it has a
colon, or else by trying names beside the importing document and in the search paths.

Main definitions: `ImportConfig.candidates`, `ImportConfig.resolve`. -/

namespace SlotFrame.ImportConfig

/-- The names that a bare reference is tried under. -/
def fileNames (c : ImportConfig) (reference : String) : List String :=
  if c.extensions.any fun ext => endsWith reference ("." ++ ext) then [reference]
  else c.extensions.map fun ext => reference ++ "." ++ ext

/-- The names in a search path. -/
def inDirectory (names : List String) (dir : String) : List Location :=
  names.map fun n => .file (FilePath.join dir n)

/-- The locations that a bare reference is looked for at, in order. -/
def candidates (c : ImportConfig) (reference : String) (importer : Option Location) :
    Result (List Location) := do
  let names := c.fileNames reference
  let beside ← match importer with
    | some l => names.mapM l.sibling
    | none => .ok (names.map .file)
  return beside ++ c.searchPaths.flatMap (inDirectory names)

/-- The location of an expanded reference, with the first extension added if it has none. -/
def expanded (c : ImportConfig) (uri : String) : Result Location := do
  let l ← Location.read uri
  return if l.hasExtension then l else l.withExtension (c.extensions.head?.getD "yaml")

/-- The fault of a bare reference that is found nowhere. -/
def notFound (reference : String) (tried : List Location) : Fault :=
  .importFailed reference
    ("not found, tried: " ++ ", ".intercalate (tried.map Location.render))

/-- The first of some locations at which a document exists. -/
def firstExisting {m : Type → Type} [Monad m] (source : Source m) :
    List Location → m (Option Location)
  | [] => pure none
  | l :: rest => do if ← source.contains l then return some l else firstExisting source rest

/-- Whether a reference has to be expanded: the map does not hold it, and it has a colon. -/
def needsExpansion (c : ImportConfig) (reference : String) : Bool :=
  ! c.importMap.contains reference && occurs ":" reference

/-- The location of a reference, where `expand` expands what has a colon. -/
def resolve {m : Type → Type} [Monad m] (c : ImportConfig) (source : Source m)
    (expand : String → Result String) (reference : String) (importer : Option Location) :
    m (Result Location) :=
  match c.importMap.get? reference with
  | some target => pure (Location.read target)
  | none =>
    if c.needsExpansion reference then
      pure (match expand reference with
        | .ok uri => c.expanded uri
        | .error f => .error (.importFailed reference f.message))
    else match c.candidates reference importer with
      | .error f => pure (.error f)
      | .ok ls => do
        match ← firstExisting source ls with
        | some l => return .ok l
        | none => return .error (notFound reference ls)

end SlotFrame.ImportConfig
