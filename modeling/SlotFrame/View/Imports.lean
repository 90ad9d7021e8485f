import SlotFrame.Import.Load
import SlotFrame.Import.Resolve
import SlotFrame.Registry.Flatten
import SlotFrame.View.Derive

/-! # Loading imports into a view

The documents that the primary one imports are searched depth-first. References that wait to be
followed lie on a stack; each is read relative to the document that asked for it last. A reference
that is registered already is not loaded again, so cycles of imports come to an end. A search that
fails leaves what it has loaded in the registry.

Main definitions: `ImportSearch`, `View.loadImport`, `View.searchImports`, `View.loadImports`,
`View.mergeImports`, `View.loadPrefixMaps`. -/

namespace SlotFrame

/-- How far a search for imports has come. -/
structure ImportSearch where
  visited : List String := []
  /-- References with the documents that asked for them, the last one first. -/
  askedBy : List (String × String) := []
  /-- References that wait to be followed, the next one first. -/
  pending : List String := []
  deriving DecidableEq, Repr, Inhabited

/-- A search that has come to a reference and found what it imports. -/
def ImportSearch.follow (s : ImportSearch) (reference : String) (imports : List String) :
    ImportSearch :=
  let visited := reference :: s.visited
  let fresh := (imports.filter (· ∉ visited)).reverse
  { visited
    askedBy := fresh.map (fun i => (i, reference)) ++ s.askedBy
    pending := fresh ++ s.pending }

namespace View

variable {m : Type → Type} [Monad m]

/-! ### One import -/

/-- Where the document that asks for an import lies. -/
def importerLocation (reference : String) (importer : Option Schema) : Result (Option Location) :=
  match importer.bind Schema.sourceFile with
  | none => .ok none
  | some file => match Location.read file with
    | .ok l => .ok (some l)
    | .error f => .error (.importFailed reference f.message)

/-- The expansion of references; the table of prefixes is built only if it is needed. -/
def expansion (cache : PrefixCache) (reference : String) : Asking (String → Result String) := do
  let v ← get
  if v.config.imports.needsExpansion reference then return (← namespaces cache).uriFor
  else return .ok

/-- Why an import failed, told of its reference. -/
def importFault (reference : String) : Fault → Fault
  | .importFailed r reason => .importFailed r reason
  | f => .importFailed reference f.message

/-- Why a located import failed, told of its reference and its location. -/
def loadFault (reference : String) (l : Location) : Fault → Fault
  | .importFailed _ reason => .importFailed reference (l.render ++ ": " ++ reason)
  | f => .importFailed reference (l.render ++ ": " ++ f.message)

/-- The location of an import. -/
def locateImport (source : Source m) (cache : PrefixCache) (v : View) (reference : String)
    (importer : Option Schema) : m (Result Location × View) :=
  match importerLocation reference importer with
  | .error f => pure (.error f, v)
  | .ok beside => do
    let (expand, v) := v.ask (expansion cache reference)
    let found ← v.config.imports.resolve source (fun s => expand >>= fun e => e s) reference beside
    return (found.mapError (importFault reference), v)

/-- Loads an import. -/
def loadImport (source : Source m) (cache : PrefixCache) (v : View) (reference : String)
    (importer : Option Schema) : m (Result Schema × View) := do
  let (found, v) ← v.locateImport source cache reference importer
  match found with
  | .error f => return (.error f, v)
  | .ok l =>
    let loaded ← loadDocument source v.config.imports.timeout l
    return (loaded.mapError (loadFault reference l), v)

/-- Registers the document behind a reference, unless it is registered. To load it may leave
something to remember, but the documents are those from before. -/
def ensureDocument (source : Source m) (cache : PrefixCache) (v : View) (s : ImportSearch)
    (reference : String) : m (Result Unit × View) :=
  if registered : v.registry.contains reference = true then pure (.ok (), v)
  else do
    let importer := (s.askedBy.lookup reference).bind v.registry.document?
    let (loaded, asked) ← v.loadImport source cache reference importer
    match loaded with
    | .error f => return (.error f, asked)
    | .ok d => return (.ok (), asked.replace (v.registry.insert reference d registered))

/-! ### The search -/

/-- What the document behind a reference imports. -/
def importsOf (v : View) (reference : String) : List String :=
  ((v.registry.document? reference).map Schema.imports).getD []

/-- Follows references until none waits or one fails, at most as many as the limit allows; `none`
says that it did not allow enough. -/
def searchImports (source : Source m) (cache : PrefixCache) :
    Nat → ImportSearch → View → m (Option (Result Unit) × View)
  | 0, _, v => pure (none, v)
  | limit + 1, s, v => match s.pending with
    | [] => pure (some (.ok ()), v)
    | reference :: rest =>
      let s := { s with pending := rest }
      if reference ∈ s.visited then searchImports source cache limit s v
      else do
        let (r, v) ← v.ensureDocument source cache s reference
        match r with
        | .error f => return (some (.error f), v)
        | .ok _ => searchImports source cache limit (s.follow reference (v.importsOf reference)) v

/-- The search that begins at the primary document. -/
def importSearch (v : View) : ImportSearch := { pending := [v.registry.key] }

/-- Tags every element with the document that declares it. -/
def tagDocuments (v : View) : View :=
  { v.replace (v.registry.mapDocuments fun d => d.tagProvenance d.identity) with loaded := true }

/-- Loads all imports unless they are loaded, following at most so many references. -/
def loadImportsWithin (limit : Nat) (source : Source m) (cache : PrefixCache) (v : View) :
    m (Option (Result Unit) × View) :=
  if v.loaded then pure (some (.ok ()), v)
  else do
    let (r, v) ← searchImports source cache limit v.importSearch v
    match r with
    | some (.ok _) => return (r, v.tagDocuments)
    | _ => return (r, v)

/-- More references than any search follows. -/
def importLimit : Nat := Nat.pow 2 62

/-- Loads all imports unless they are loaded. -/
def loadImports (source : Source m) (cache : PrefixCache) (v : View) : m (Result Unit × View) := do
  let (r, v) ← v.loadImportsWithin importLimit source cache
  return (r.getD (.error (.other "too many imports")), v)

/-- Loads all imports and folds them into the primary document. -/
def mergeImports (source : Source m) (cache : PrefixCache) (v : View) :
    m (Result Unit × View) := do
  let (r, v) ← v.loadImports source cache
  match r with
  | .ok _ => return (.ok (), v.replace v.registry.flatten)
  | .error f => return (.error f, v)

/-! ### Shared prefix maps -/

/-- Fetches prefix maps in order until one fails; those fetched before it are kept. -/
def fetchMaps (c : RegistryConfig) (web : Web m) :
    List String → PrefixCache → m (Result Unit × PrefixCache)
  | [], cache => pure (.ok (), cache)
  | name :: names, cache => do
    let (r, cache) ← c.fetch web name cache
    match r with
    | .ok _ => fetchMaps c web names cache
    | .error f => return (.error f, cache)

/-- Fetches the prefix maps that the primary document asks for. -/
def loadPrefixMaps (web : Web m) (cache : PrefixCache) (v : View) :
    m (Result Unit × PrefixCache × View) := do
  let (r, cache) ← fetchMaps v.config.registry web v.primary.defaultCuriMaps cache
  match r with
  | .ok _ => return (.ok (), cache, v.advance)
  | .error f => return (.error f, cache, v)

/-! ### Views of files -/

/-- A view of the document in a file. -/
def load (source : Source m) (path : String) (config : Config) : m (Result View) :=
  match config.check with
  | .error f => pure (.error f)
  | .ok _ => do
    let loaded ← loadDocument source config.imports.timeout (.file path)
    return loaded.map fun s => ofSchema s config

end View

end SlotFrame
