import SlotFrame.Command.Arguments
import SlotFrame.Json.Write
import SlotFrame.Schema.Encode
import SlotFrame.View.Imports
import SlotFrame.Yaml.Write

/-! # What the command prints

The command loads a schema with its shared prefix maps and its imports, folds the imports in and
writes the induced slots out unless it is told not to, and prints the primary document.

Main definitions: `Surroundings`, `Arguments.prepare`, `Arguments.render`. -/

namespace SlotFrame

/-- Where the command finds files and documents. -/
structure Surroundings (m : Type → Type) where
  fileText : String → m (Except String String)
  source : Source m
  web : Web m

/-- A document as text. -/
def OutputFormat.print (f : OutputFormat) (s : Schema) : String :=
  match f with
  | json => Json.pretty s.encode
  | yaml => Yaml.write s.encode

namespace Arguments

variable {m : Type → Type} [Monad m]

/-- The configuration in a file, or the default one. -/
def configuration (around : Surroundings m) (file : Option String) : m (Result Config) :=
  match file with
  | none => pure (.ok {})
  | some path => do
    match ← around.fileText path with
    | .ok text => return Config.ofText path text
    | .error message => return .error (.io message)

/-- A view of the schema with its imports loaded. -/
def loadView (around : Surroundings m) (cache : PrefixCache) (a : Arguments) :
    ExceptT Fault m (PrefixCache × View) := do
  let config ← ExceptT.mk (configuration around a.config)
  let v ← ExceptT.mk (View.load around.source a.schema config)
  let (fetched, cache, v) ← ExceptT.lift (v.loadPrefixMaps around.web cache)
  let _ ← ExceptT.mk (pure fetched)
  let (loaded, v) ← ExceptT.lift (v.loadImports around.source cache)
  let _ ← ExceptT.mk (pure loaded)
  return (cache, v)

/-- A view of the schema as it is to be printed. -/
def prepare (around : Surroundings m) (cache : PrefixCache) (a : Arguments) : ExceptT Fault m View := do
  let (cache, v) ← a.loadView around cache
  let (merged, v) ←
    if a.merge then ExceptT.lift (v.mergeImports around.source cache) else pure (.ok (), v)
  let _ ← ExceptT.mk (pure merged)
  let (written, v) := if a.materialize then v.ask View.materialize else (.ok (), v)
  let _ ← ExceptT.mk (pure written)
  return v

/-- The text that the command prints. -/
def render (around : Surroundings m) (cache : PrefixCache) (a : Arguments) : m (Result String) :=
  ExceptT.run do return a.format.print (← a.prepare around cache).primary

end Arguments

end SlotFrame
