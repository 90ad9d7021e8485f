import SlotFrame.Registry.Materialize
import SlotFrame.View.Basic

/-! # Derived definitions of a view

The induced definitions, the owners of elements and the namespaces of a registry, each worked out at
most once in an epoch.

Main definitions: `View.inducedSlot`, `View.inducedClass`, `View.elementOwners`, `View.namespaces`,
`View.materialize`. -/

namespace SlotFrame.View

/-- A slot as it is seen from a class, or from none. -/
def inducedSlot (name : String) (className : Option String) : Asking SlotDef :=
  remember (fun m => m.slots.lookup (name, className))
    (fun s m => { m with slots := ((name, className), s) :: m.slots })
    (ofRegistry fun r => r.inducedSlot name className)

/-- A type filled along the types above it. -/
def inducedType (name : String) : Asking TypeDef :=
  remember (fun m => m.types.get? name) (fun t m => { m with types := m.types.insert name t })
    (ofRegistry fun r => r.inducedType name)

/-- All slots of a class as they are seen from it. -/
def classInducedSlots (className : String) : Asking (List SlotDef) := do
  (← ofRegistry fun r => r.classSlots className).mapM fun n => inducedSlot n (some className)

/-- Works out a class with all its slots as they are seen from it. -/
def deriveClass (className : String) : Asking ClassDef := do
  match (← get).registry.class? className with
  | some c => return Registry.withInduced c (← classInducedSlots className)
  | none => throw (.unresolved .classDef className none)

/-- A class with all its slots as they are seen from it. -/
def inducedClass (className : String) : Asking ClassDef :=
  remember (fun m => m.classes.get? className)
    (fun c m => { m with classes := m.classes.insert className c }) (deriveClass className)

/-- The first slot of a class that identifies its instances. -/
def identifierSlot (className : String) : Asking (Option SlotDef) := do
  return (← classInducedSlots className).find? fun s => s.identifier = some true

/-- For every declared name the name of the last document that declares it. -/
def elementOwners : Asking (Table String) :=
  remember Memo.owners (fun t m => { m with owners := some t })
    (ofRegistry fun r => .ok r.elementOwners)

/-- The name of the document that declares an element. -/
def ownerOf (element : String) : Asking (Option String) := do
  return (← elementOwners).get? element

/-- The table of all prefixes, with the shared maps that are kept. -/
def namespaces (cache : PrefixCache) : Asking Namespaces :=
  remember Memo.namespaces (fun t m => { m with namespaces := some t })
    (ofRegistry fun r => r.namespaces cache)

/-- The induced slots of every class. -/
def inducedSlots : Asking (List (String × List SlotDef)) := do
  ((← get).registry.classes true).keys.mapM fun n => return (n, ← classInducedSlots n)

/-- Writes the induced slots of every class into its attributes. -/
def materialize : Asking Unit := do
  let slots ← inducedSlots
  modify fun v => v.replace (v.registry.writeAll slots)

end SlotFrame.View
