import SlotFrame.Registry.Induction

/-! # Places in a value

A walk hands every node to its visitor together with the place where it stands: what the node is an
instance of, whether a collection is expected there, the records that enclose it, and the keys and
indices that lead to it.

Main definitions: `Place`, `Place.child`, `Place.enter`, `Place.pointer`. -/

namespace SlotFrame

/-- A place in a value that is walked. -/
structure Place where
  /-- Whether the value of a slot with many values is expected. -/
  inCollection : Bool := false
  /-- What a node at this place is an instance of, if that is known. -/
  instanceOf : Option InstanceOf := none
  /-- The enclosing records as they stood before the walk, the outermost first. -/
  records : List Value := []
  /-- The keys and indices that lead here. -/
  segments : List String := []
  deriving Repr, Inhabited

namespace Place

/-- How many records enclose the place. -/
def depth (p : Place) : Nat := p.records.length

/-- The same place inside a record. -/
def enter (p : Place) (record : Value) : Place := { p with records := p.records ++ [record] }

/-- The place one key or index further. -/
def child (p : Place) (segment : String) : Place := { p with segments := p.segments ++ [segment] }

/-- The same place where no collection is expected. -/
def single (p : Place) : Place := { p with inCollection := false }

/-- The class of which the node is an instance. -/
def className? (p : Place) : Option String :=
  (p.instanceOf.bind InstanceOf.class?).map ClassDef.name

/-- A segment with its tildes and slashes escaped. -/
def escape (segment : String) : String :=
  String.ofList (segment.toList.flatMap fun c =>
    if c = '~' then ['~', '0'] else if c = '/' then ['~', '1'] else [c])

/-- The segments that lead here, each after a slash; a lone slash at the top. -/
def pointer (p : Place) : String :=
  if p.segments.isEmpty then "/" else String.join (p.segments.map fun s => "/" ++ escape s)

/-- The words for what the node is an instance of. -/
def description (p : Place) : String :=
  match p.instanceOf with
  | some i => " (instance of " ++ i.kind.label ++ " '" ++ i.name ++ "')"
  | none => ""

end Place

end SlotFrame
