import SlotFrame.Namespace.Registry
import SlotFrame.Registry.Basic

/-! # The namespaces of a registry

Every document declares prefixes; the first declaration of a prefix stands. Shared prefix maps fill
in what no document declares, as far as they are kept.

Main definition: `Registry.namespaces`. -/

namespace SlotFrame.Registry

/-- The prefixes that documents declare with their namespaces, in the order of the registry. -/
def declaredPrefixes (r : Registry) : List (String × String) :=
  (r.documents true).flatMap fun d => d.prefixes.entries.map fun e => (e.1, e.2.reference)

/-- The table of the declared prefixes; none if one of them cannot be a prefix. -/
def declaredNamespaces (r : Registry) : Result Namespaces :=
  r.declaredPrefixes.foldlM (fun t e => t.set e.1 e.2) Namespaces.empty

/-- Makes the namespace of a prefix the default one, if the prefix is mapped. -/
def withDefault (t : Namespaces) (name : Option String) : Result Namespaces :=
  match name.bind t.entries.get? with
  | some uri => t.setDefault uri
  | none => .ok t

/-- Adds the kept ones of some prefix maps. -/
def withMaps (cache : PrefixCache) (names : List String) (t : Namespaces) : Namespaces :=
  (names.filterMap cache.get?).foldl (fun t context => t.addContext context false) t

/-- The table of all prefixes, with the default prefix and the shared maps that the primary document
asks for. -/
def namespaces (r : Registry) (cache : PrefixCache) : Result Namespaces := do
  let t ← withDefault (← r.declaredNamespaces) r.primary.defaultPrefix
  return withMaps cache r.primary.defaultCuriMaps t

end SlotFrame.Registry
