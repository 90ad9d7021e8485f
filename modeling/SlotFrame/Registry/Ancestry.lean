import SlotFrame.Hierarchy.Closure
import SlotFrame.Registry.Basic

/-! # Ancestors and descendants

Classes and slots inherit from a parent and from mixins, types from a parent alone. A traversal
chooses which edges it follows, whether it contains its start, and whether imported documents are
looked through for children.

Main definitions: `Traversal`, `Registry.classAncestors`, `Registry.classDescendants`,
`Registry.slotAncestorsOf`, `Registry.typeAncestors`. -/

namespace SlotFrame

/-- Which edges are followed and what is answered. -/
structure Traversal where
  isA : Bool := true
  mixins : Bool := true
  reflexive : Bool := true
  imports : Bool := true
  deriving DecidableEq, Repr, Inhabited

/-- The names directly above an element: the parent first, then the mixins. -/
def Traversal.above {α : Type} [Inheriting α] (o : Traversal) (e : α) : List String :=
  (if o.isA then (Inheriting.parent e).toList else []) ++
    (if o.mixins then Inheriting.mixins e else [])

namespace Registry

/-- How many entries the documents have in some tables. -/
def countIn {α : Type} (r : Registry) (select : Schema → Table α) : Nat :=
  ((r.documents true).flatMap fun d => (select d).keys).length

/-- How many attributes the classes of all documents have. -/
def countAttributes (r : Registry) : Nat :=
  ((r.documents true).flatMap attributeNames).length

/-- The entries of a table below a name. -/
def below {α : Type} [Inheriting α] (o : Traversal) (name : String) (t : Table α) : List String :=
  keysOf (t.entries.filter fun e => (o.above e.2).contains name)

/-! ### Classes -/

/-- The classes directly above a class. -/
def classParents (r : Registry) (o : Traversal) (name : String) : Result (List String) :=
  match r.class? name with
  | some c => .ok (o.above c)
  | none => .error (.unresolved .classDef name none)

/-- The classes directly below a class, as they were declared. -/
def classChildren (r : Registry) (o : Traversal) (name : String) : Result (List String) :=
  match r.class? name with
  | some _ => .ok (below o name (r.classes o.imports))
  | none => .error (.unresolved .classDef name none)

/-- The hierarchy of classes upwards. -/
def classesUp (r : Registry) (o : Traversal) : Hierarchy :=
  ⟨.classDef, r.classParents o, r.countIn Schema.classes + 1⟩

/-- The hierarchy of classes downwards. -/
def classesDown (r : Registry) (o : Traversal) : Hierarchy :=
  ⟨.classDef, r.classChildren o, r.countIn Schema.classes + 1⟩

/-- All classes above a class. -/
def classAncestors (r : Registry) (o : Traversal) (name : String) : Result (List String) :=
  (r.classesUp o).ancestors name o.reflexive

/-- All classes below a class. -/
def classDescendants (r : Registry) (o : Traversal) (name : String) : Result (List String) :=
  (r.classesDown o).ancestors name o.reflexive

/-- The classes with nothing above them. -/
def classRoots (r : Registry) (o : Traversal) : List String :=
  keysOf ((r.classes o.imports).entries.filter fun e => (o.above e.2).isEmpty)

/-- The classes with nothing below them. -/
def classLeaves (r : Registry) (o : Traversal) : List String :=
  let classes := r.classes o.imports
  let parents := classes.values.flatMap o.above
  classes.keys.filter (· ∉ parents)

/-! ### Slots -/

/-- The slots directly above a slot. -/
def slotParents (r : Registry) (o : Traversal) (name : String) : Result (List String) :=
  match r.slot? name with
  | some s => .ok (o.above s)
  | none => .error (.unresolved .slotDef name none)

/-- The slots directly below a slot, as they were declared. -/
def slotChildren (r : Registry) (o : Traversal) (name : String) : Result (List String) :=
  match r.slot? name with
  | some _ => .ok (below o name (r.slots o.imports))
  | none => .error (.unresolved .slotDef name none)

/-- A number that no search among the slots needs more expansions than. -/
def slotBound (r : Registry) : Nat := r.countIn Schema.slots + r.countAttributes + 2

/-- The hierarchy of slots upwards, in which a name stands for a definition of its own. -/
def slotsUpFrom (r : Registry) (o : Traversal) (name : String) (own : SlotDef) : Hierarchy where
  kind := .slotDef
  above n := if n = name then .ok (o.above own) else r.slotParents o n
  size := r.slotBound

/-- The hierarchy of slots downwards. -/
def slotsDown (r : Registry) (o : Traversal) : Hierarchy :=
  ⟨.slotDef, r.slotChildren o, r.slotBound⟩

/-- All slots above a definition of a name. -/
def slotAncestorsOf (r : Registry) (o : Traversal) (name : String) (own : SlotDef) :
    Result (List String) :=
  (r.slotsUpFrom o name own).ancestors name o.reflexive

/-- All slots above a slot. -/
def slotAncestors (r : Registry) (o : Traversal) (name : String) : Result (List String) :=
  match r.slot? name with
  | some s => r.slotAncestorsOf o name s
  | none => .error (.unresolved .slotDef name none)

/-- All slots below a slot. -/
def slotDescendants (r : Registry) (o : Traversal) (name : String) : Result (List String) :=
  (r.slotsDown o).ancestors name o.reflexive

/-! ### Types -/

/-- The type directly above a type. -/
def typeParents (r : Registry) (o : Traversal) (name : String) : Result (List String) :=
  match r.type? name with
  | some t => .ok (o.above t)
  | none => .error (.unresolved .typeDef name none)

/-- The hierarchy of types upwards. -/
def typesUp (r : Registry) (o : Traversal) : Hierarchy :=
  ⟨.typeDef, r.typeParents o, r.countIn Schema.types + 1⟩

/-- All types above a type. -/
def typeAncestors (r : Registry) (o : Traversal) (name : String) : Result (List String) :=
  (r.typesUp o).ancestors name o.reflexive

end Registry

end SlotFrame
