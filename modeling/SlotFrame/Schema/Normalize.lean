import SlotFrame.Schema.Definition

/-! # Names from keys, and provenance

`Schema.normalize` names what is nameless after the key it stands under. `Schema.tagProvenance`
records on every element that has no provenance yet which document it comes from; refinements of
slots are left alone, since they declare nothing. -/

namespace SlotFrame

/-- Names the nameless entries of a table after their keys. -/
def nameFromKeys {α : Type} [Element α] (t : Table α) : Table α :=
  t.mapWithKey fun key e => if (Element.name e).isEmpty then Element.rename key e else e

/-- Writes permissible values without a text as their keys. -/
def EnumDef.normalize (e : EnumDef) : EnumDef :=
  { e with permissibleValues := e.permissibleValues.mapWithKey fun key v =>
      if v.text.isEmpty then { v with text := key } else v }

/-- Names attributes and refinements after their keys. -/
def ClassDef.normalize (c : ClassDef) : ClassDef :=
  { c with attributes := nameFromKeys c.attributes, slotUsage := nameFromKeys c.slotUsage }

namespace Schema

/-- Names every element after its key where it has no name. -/
def normalize (s : Schema) : Schema :=
  { s with
    subsets := nameFromKeys s.subsets
    types := nameFromKeys s.types
    slots := nameFromKeys s.slots
    enums := (nameFromKeys s.enums).map EnumDef.normalize
    classes := (nameFromKeys s.classes).map ClassDef.normalize }

end Schema

/-- Records where an element comes from, unless it is known already. -/
def tagElement {α : Type} [Element α] (origin : String) (e : α) : α :=
  let m := Element.metadata e
  Element.withMetadata { m with fromSchema := m.fromSchema.or (some origin) } e

/-- Tags a class and its attributes. -/
def ClassDef.tagProvenance (origin : String) (c : ClassDef) : ClassDef :=
  tagElement origin { c with attributes := c.attributes.map (tagElement origin) }

namespace Schema

/-- Tags every element without provenance. -/
def tagProvenance (origin : String) (s : Schema) : Schema :=
  { s with
    subsets := s.subsets.map (tagElement origin)
    types := s.types.map (tagElement origin)
    enums := s.enums.map (tagElement origin)
    slots := s.slots.map (tagElement origin)
    classes := s.classes.map (ClassDef.tagProvenance origin) }

end Schema

end SlotFrame
