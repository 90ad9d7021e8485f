import SlotFrame.Config.Basic
import SlotFrame.Json.Read
import SlotFrame.Namespace.Basic
import SlotFrame.Source.Web

/-! # Shared prefix maps

Named maps of prefixes are fetched from a registry. A map that was fetched once, or given beforehand,
is kept and never replaced.

Main definitions: `PrefixCache`, `RegistryConfig.fetch`. -/

namespace SlotFrame

/-- The maps that are kept. -/
abbrev PrefixCache := Table PrefixMap

namespace PrefixCache

/-- Keeps a map unless there is one of that name; answers the one that is kept. -/
def keep (cache : PrefixCache) (name : String) (context : PrefixMap) : PrefixMap × PrefixCache :=
  match cache.get? name with
  | some there => (there, cache)
  | none => (context, cache.insert name context)

end PrefixCache

/-- Drops a key and moves the last entry into its place. -/
def swapDrop {α : Type} (key : String) (entries : List (String × α)) : List (String × α) :=
  match entries.getLast? with
  | none => []
  | some last =>
    if last.1 = key then entries.dropLast
    else entries.dropLast.map fun e => if e.1 = key then last else e

/-- The prefix map that a fetched record holds: what stands under its context, or else all else. -/
def contextOf (fields : List (String × Value)) : PrefixMap :=
  match lookupKey "@context" fields with
  | some (.record inner) => Table.ofList inner
  | some _ => Table.ofList (swapDrop "@context" fields)
  | none => Table.ofList fields

namespace RegistryConfig

/-- The address of a named map. -/
def urlFor (c : RegistryConfig) (name : String) : String :=
  String.ofList (trimEnd (· = '/') c.url.toList) ++ "/" ++ name ++ ".jsonld"

/-- The prefix map that an answer holds. -/
def mapOf (c : RegistryConfig) (name : String) (answer : WebAnswer) : Result PrefixMap :=
  let url := c.urlFor name
  match answer with
  | .stalled => Namespaces.fault
      ("Timed out after " ++ c.timeout.brief ++ " fetching context for: " ++ name)
  | .unsent reason => Namespaces.fault ("Cannot fetch context " ++ url ++ ": " ++ reason)
  | .answered status body =>
    if ! Web.isSuccess status then
      Namespaces.fault ("Cannot fetch context " ++ url ++ ": HTTP " ++ Web.statusText status)
    else match (utf8Text? body).map Json.readValue with
      | some (.ok (.record fields)) => .ok (contextOf fields)
      | some (.ok _) => Namespaces.fault ("Context for " ++ name ++ " is not a JSON object")
      | _ => Namespaces.fault ("Invalid context " ++ url ++ ": error decoding response body")

/-- Fetches a named map unless it is kept. -/
def fetch {m : Type → Type} [Monad m] (c : RegistryConfig) (web : Web m) (name : String)
    (cache : PrefixCache) : m (Result PrefixMap × PrefixCache) :=
  match cache.get? name with
  | some there => pure (.ok there, cache)
  | none => do
    let answer ← web.send (Web.readTarget (c.urlFor name))
    match c.mapOf name answer with
    | .ok context =>
      let (kept, cache) := cache.keep name context
      return (.ok kept, cache)
    | .error f => return (.error f, cache)

end RegistryConfig

end SlotFrame
