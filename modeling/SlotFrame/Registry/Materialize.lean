import SlotFrame.Registry.Induction

/-! # Writing induced slots out

To materialize a registry is to write the induced slots of every class into its attributes. All of
them are computed before the first is written, and each class is written where it is looked up: in
the newest document that declares it.

Main definitions: `Registry.writeAttributes`, `Registry.materialize`. -/

namespace SlotFrame

namespace ClassDef

/-- A class with slots added to its attributes, each under its name. -/
def withAttributes (slots : List SlotDef) (c : ClassDef) : ClassDef :=
  { c with attributes := slots.foldl (fun t s => t.insert s.name s) c.attributes }

end ClassDef

namespace Registry

/-- The key of the newest document that declares a class. -/
def homeOf? (r : Registry) (className : String) : Option String :=
  (r.entries.reverse.find? fun e => e.2.classes.contains className).map Prod.fst

/-- Adds slots to the attributes of a class. -/
def writeAttributes (r : Registry) (className : String) (slots : List SlotDef) : Registry :=
  match r.homeOf? className with
  | some key => r.modify key fun d =>
      { d with classes := d.classes.modify className (ClassDef.withAttributes slots) }
  | none => r

/-- Adds to every listed class the slots listed with it. -/
def writeAll (r : Registry) (slots : List (String × List SlotDef)) : Registry :=
  slots.foldl (fun r e => r.writeAttributes e.1 e.2) r

/-- The induced slots of every class. -/
def inducedSlots (r : Registry) : Result (List (String × List SlotDef)) :=
  (r.classes true).keys.mapM fun n => return (n, ← r.classInducedSlots n)

/-- The registry with all induced slots written out. -/
def materialize (r : Registry) : Result Registry := r.inducedSlots.map r.writeAll

end Registry

end SlotFrame
