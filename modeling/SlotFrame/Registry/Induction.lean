import SlotFrame.Registry.Ancestry
import SlotFrame.Schema.Fill

/-! # Induction

An induced definition is an element as it is seen from somewhere: it takes every field from the
nearest definition that sets it. For a slot these are its own definition, what the classes above say
about it, and the slots above it; for a type, the types above it.

Main definitions: `Registry.slotSources`, `Registry.inducedSlot`, `Registry.inducedType`,
`Registry.classSlots`, `Registry.inducedClass`, `Registry.slotRange`. -/

namespace SlotFrame

namespace SlotDef

/-- A slot filled from definitions, nearest first. -/
def fillFrom (sources : List SlotDef) : SlotDef := sources.foldl SlotDef.fill {}

end SlotDef

namespace TypeDef

/-- A type filled from definitions, nearest first. -/
def fillFrom (sources : List TypeDef) : TypeDef := sources.foldl TypeDef.fill {}

end TypeDef

namespace Registry

/-! ### Slots -/

/-- The attribute of a name that the first of some classes declares. -/
def scopedAttribute? (r : Registry) (classes : List String) (name : String) : Option SlotDef :=
  classes.findSome? fun c => (r.class? c).bind fun d => d.attributes.get? name

/-- The classes above a class, none without a class. -/
def scope (r : Registry) (className : Option String) : Result (List String) :=
  match className with
  | some c => r.classAncestors {} c
  | none => .ok []

/-- The own definition of a slot: the slot itself, an attribute of the classes in scope, or else an
attribute of any class. -/
def ownDefinition (r : Registry) (name : String) (className : Option String)
    (classes : List String) : Result SlotDef :=
  match ((r.ownSlot? name).or (r.scopedAttribute? classes name)).or (r.slot? name) with
  | some d => .ok d
  | none => .error (.unresolved .slotDef name className)

/-- What classes say about a slot: each its attribute and then its refinement. -/
def refinements (r : Registry) (classes : List String) (name : String) : List SlotDef :=
  classes.flatMap fun c => match r.class? c with
    | some d => (d.attributes.get? name).toList ++ (d.slotUsage.get? name).toList
    | none => []

/-- The definitions that a slot is filled from, nearest first. -/
def slotSources (r : Registry) (name : String) (className : Option String) :
    Result (List SlotDef) := do
  let classes ← r.scope className
  let own ← r.ownDefinition name className classes
  let above ← r.slotAncestorsOf { reflexive := false } name own
  return own :: r.refinements classes name ++ above.filterMap r.slot?

/-- A slot as it is seen from a class, or from none. -/
def inducedSlot (r : Registry) (name : String) (className : Option String) : Result SlotDef :=
  (r.slotSources name className).map SlotDef.fillFrom

/-! ### Types -/

/-- A type filled along the types above it. -/
def inducedType (r : Registry) (name : String) : Result TypeDef := do
  let chain ← r.typeAncestors {} name
  return TypeDef.fillFrom (chain.filterMap r.type?)

/-! ### Classes -/

/-- The names of the slots and attributes of a class. -/
def slotNames (c : ClassDef) : List String := c.slots ++ c.attributes.keys

/-- The names of all slots that a class has, its own first. -/
def classSlots (r : Registry) (className : String) : Result (List String) := do
  let classes ← r.classAncestors {} className
  return (classes.filterMap r.class?).foldl (fun names c => addNames names (slotNames c)) []

/-- All slots of a class as they are seen from it. -/
def classInducedSlots (r : Registry) (className : String) : Result (List SlotDef) := do
  (← r.classSlots className).mapM fun n => r.inducedSlot n (some className)

/-- A class with its induced slots as attributes, and nothing left to refine. -/
def withInduced (c : ClassDef) (slots : List SlotDef) : ClassDef :=
  { c with
    slots := slots.map SlotDef.name
    slotUsage := ∅
    attributes := Table.ofList (slots.map fun s => (s.name, s)) }

/-- A class with all its slots as they are seen from it. -/
def inducedClass (r : Registry) (className : String) : Result ClassDef :=
  match r.class? className with
  | some c => (r.classInducedSlots className).map (withInduced c)
  | none => .error (.unresolved .classDef className none)

/-- The first slot of a class that identifies its instances. -/
def identifierSlot (r : Registry) (className : String) : Result (Option SlotDef) :=
  (r.classInducedSlots className).map (·.find? fun s => s.identifier = some true)

end Registry

/-! ### Ranges -/

/-- What a value is an instance of. -/
inductive InstanceOf where
  | ofClass (c : ClassDef)
  | ofSlot (s : SlotDef)
  | ofEnum (e : EnumDef)
  | ofType (t : TypeDef)
  deriving Repr

namespace InstanceOf

/-- The name of the element. -/
def name : InstanceOf → String
  | ofClass c => c.name
  | ofSlot s => s.name
  | ofEnum e => e.name
  | ofType t => t.name

/-- The kind of the element. -/
def kind : InstanceOf → ElementKind
  | ofClass _ => .classDef
  | ofSlot _ => .slotDef
  | ofEnum _ => .enumDef
  | ofType _ => .typeDef

/-- The class, if it is one. -/
def class? : InstanceOf → Option ClassDef
  | ofClass c => some c
  | _ => none

end InstanceOf

namespace Registry

/-- The class, enum or type of a name, looked for in this order. -/
def instance? (r : Registry) (name : String) : Option InstanceOf :=
  ((r.class? name).map .ofClass).or (((r.enum? name).map .ofEnum).or ((r.type? name).map .ofType))

/-- What the values of a slot are instances of, by its range or else by the default range of the
primary document; nothing without either. -/
def slotRange (r : Registry) (s : SlotDef) : Result (Option InstanceOf) :=
  match s.range.or r.primary.defaultRange with
  | none => .ok none
  | some range =>
    match r.instance? range with
    | some i => .ok (some i)
    | none => .error (.unresolved .typeDef range (some ("range of slot '" ++ s.name ++ "'")))

end Registry

end SlotFrame
