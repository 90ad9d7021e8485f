import SlotFrame.Fault
import SlotFrame.Config.Duration
import SlotFrame.Document.Tree
import SlotFrame.Schema.Decode
import SlotFrame.Schema.Encode
import SlotFrame.Location.FilePath
import SlotFrame.Toml.Read
import SlotFrame.Yaml.Read

/-! # Configuration

How documents are looked for and how long is waited for them, how strictly values are walked, and
where shared prefix maps come from. What is left out has a default.

Main definitions: `Config`, `Config.check`, `Config.decode`, `Config.ofText`. -/

namespace SlotFrame

/-- How imported documents are found and loaded. -/
structure ImportConfig where
  /-- Directories searched after the one of the importing document. -/
  searchPaths : List String := []
  /-- Extensions tried in order for a bare name. -/
  extensions : List String := ["yaml", "yml", "json"]
  /-- How long the loading of one document may take. -/
  timeout : Duration := .ofSeconds 30
  /-- Locations that stand for references. -/
  importMap : Table String := ∅
  deriving DecidableEq, Repr, Inhabited

/-- Where shared prefix maps are fetched from. -/
structure RegistryConfig where
  url : String := "https://raw.githubusercontent.com/prefixcommons/biocontext/master/registry"
  /-- How long the fetching of one map may take. -/
  timeout : Duration := .ofSeconds 10
  deriving DecidableEq, Repr, Inhabited

/-- A configuration. -/
structure Config where
  imports : ImportConfig := {}
  /-- Whether a walk refuses values of the wrong shape. -/
  strict : Bool := true
  registry : RegistryConfig := {}
  deriving DecidableEq, Repr, Inhabited

namespace Config

/-- Fails with the first value that cannot work. -/
def check (c : Config) : Result Unit :=
  if c.imports.extensions.isEmpty then .error (.config "schema.extensions must not be empty")
  else match c.imports.extensions.find? fun e => e.isEmpty || startsWith e "." with
    | some e => .error (.config
        ("schema.extensions entries are bare extensions, got '" ++ e ++ "'"))
    | none =>
      if c.imports.timeout.nanos = 0 then
        .error (.config "schema.import_timeout must be positive")
      else if c.registry.timeout.nanos = 0 then
        .error (.config "namespaces.fetch_timeout must be positive")
      else if ! startsWith c.registry.url "http://" && ! startsWith c.registry.url "https://" then
        .error (.config
          ("namespaces.prefix_registry_url must be an http(s) URL, got '" ++ c.registry.url ++ "'"))
      else .ok ()

end Config

/-! ### Reading -/

/-- The fields of a section. In a format that allows it they may also stand in a list, in the order
in which they are declared. -/
def sectionFields (positional : Bool) (declared : List String) (t : Tree) : Reading Fields :=
  match positional, t with
  | true, .list _ xs =>
    if declared.length < xs.length then .error (.expected "fewer members")
    else .ok ⟨declared.zip xs⟩
  | _, _ => Fields.of declared t

/-- Reads a duration. -/
def Duration.decode (t : Tree) : Reading Duration := do
  match Duration.read? (← t.asText) with
  | some d => return d
  | none => .error (.expected "a duration")

namespace ImportConfig

/-- The declared fields of the section. -/
def declared : List String := ["search_paths", "extensions", "import_timeout", "import_map"]

/-- Reads the section. -/
def decode (positional : Bool) (t : Tree) : Reading ImportConfig := do
  let f ← sectionFields positional declared t
  let blank : ImportConfig := {}
  return {
    searchPaths := ← f.get "search_paths" Tree.texts blank.searchPaths
    extensions := ← f.get "extensions" Tree.texts blank.extensions
    timeout := ← f.get "import_timeout" Duration.decode blank.timeout
    importMap := ← f.get "import_map" (Tree.table Tree.asText) blank.importMap }

/-- The section as a value. -/
def encode (c : ImportConfig) : Value :=
  .record
    [("search_paths", .list (c.searchPaths.map .text)),
     ("extensions", .list (c.extensions.map .text)),
     ("import_timeout", .text c.timeout.render),
     ("import_map", .record (c.importMap.map Value.text).entries)]

end ImportConfig

namespace RegistryConfig

/-- The declared fields of the section. -/
def declared : List String := ["prefix_registry_url", "fetch_timeout"]

/-- Reads the section. -/
def decode (positional : Bool) (t : Tree) : Reading RegistryConfig := do
  let f ← sectionFields positional declared t
  let blank : RegistryConfig := {}
  return {
    url := ← f.get "prefix_registry_url" Tree.asText blank.url
    timeout := ← f.get "fetch_timeout" Duration.decode blank.timeout }

/-- The section as a value. -/
def encode (c : RegistryConfig) : Value :=
  .record [("prefix_registry_url", .text c.url), ("fetch_timeout", .text c.timeout.render)]

end RegistryConfig

namespace Config

/-- Reads the section on walks. -/
def decodeStrict (positional : Bool) (t : Tree) : Reading Bool := do
  let f ← sectionFields positional ["strict"] t
  f.get "strict" Tree.truth true

/-- Reads a configuration. -/
def decode (positional : Bool) (t : Tree) : Reading Config := do
  let f ← sectionFields positional ["schema", "walker", "namespaces"] t
  return {
    imports := ← f.get "schema" (ImportConfig.decode positional) {}
    strict := ← f.get "walker" (decodeStrict positional) true
    registry := ← f.get "namespaces" (RegistryConfig.decode positional) {} }

/-- A configuration as a value. -/
def encode (c : Config) : Value :=
  .record
    [("schema", c.imports.encode),
     ("walker", .record [("strict", .bool c.strict)]),
     ("namespaces", c.registry.encode)]

/-- Reads a text in the format of an extension. -/
def readText (path ext text : String) : Result Config :=
  if ext = "toml" then do
    let t ← (Toml.read text).mapError fun f => .config f.message
    (decode true t).mapError fun m => .config m.message
  else if ext = "yaml" ∨ ext = "yml" then
    match (Yaml.read text).mapError Yaml.Fault.message >>= fun t =>
        (decode false t).mapError Mismatch.message with
    | .ok c => .ok c
    | .error m => .error (.config (path ++ ": " ++ m))
  else .error (.config ("Unsupported configuration format '" ++ ext ++ "' for " ++ path))

/-- The configuration of a file's text, if it can work. -/
def ofText (path text : String) : Result Config := do
  let c ← readText path ((FilePath.extension? path).getD "") text
  c.check
  return c

end Config

end SlotFrame
