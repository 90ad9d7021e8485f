import SlotFrame.Registry.Basic

/-! # Flattening

A registry is flattened by folding every imported document into the primary one. What the primary
document declares stays; of the imported declarations of one name the first is taken.

Main definitions: `Schema.adopt`, `Registry.flatten`. -/

namespace SlotFrame

/-- A document with the declarations of another that it lacks. -/
def Schema.adopt (s d : Schema) : Schema :=
  { s with
    classes := s.classes.addMissing d.classes
    slots := s.slots.addMissing d.slots
    types := s.types.addMissing d.types
    enums := s.enums.addMissing d.enums
    subsets := s.subsets.addMissing d.subsets
    prefixes := s.prefixes.addMissing d.prefixes }

namespace Registry

/-- The primary document with all declarations of the imported ones, which needs no imports. -/
def flattened (r : Registry) : Schema :=
  { r.imported.values.foldl Schema.adopt r.primary with imports := [] }

/-- The registry of the flattened document alone. -/
def flatten (r : Registry) : Registry where
  key := r.key
  primary := r.flattened
  imported := ∅
  fresh := rfl

end Registry

end SlotFrame
