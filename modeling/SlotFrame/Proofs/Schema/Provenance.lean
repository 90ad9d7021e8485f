import Mathlib.Data.List.Forall2
import SlotFrame.Proofs.Data.Tables
import SlotFrame.Schema.Normalize

/-! # What tagging changes

The provenances of a document are those of its elements and of the attributes of its classes, in
order. To tag a document is to fill those that are missing; without provenances a document is the
same before and after. Entry by entry, a tagged table has the same names in the same order, and an
element differs from what it was in its provenance alone.

Main definitions: `Schema.provenances`, `Schema.untag`, `TaggedIn`, `ClassDef.TaggedIn`,
`Schema.Tagged`.

Main statements: `Schema.provenances_tagProvenance`, `Schema.untag_tagProvenance` and
`Schema.tagged_tagProvenance`. -/

namespace SlotFrame

/-! ### Elements and their metadata -/

/-- Metadata that are written are read back, and what they replace is forgotten. -/
class LawfulElement (α : Type) [Element α] : Prop where
  metadata_withMetadata (m : Metadata) (e : α) : Element.metadata (Element.withMetadata m e) = m
  withMetadata_withMetadata (m n : Metadata) (e : α) :
    Element.withMetadata m (Element.withMetadata n e) = Element.withMetadata m e

instance : LawfulElement SlotDef := ⟨fun _ _ => rfl, fun _ _ _ => rfl⟩
instance : LawfulElement ClassDef := ⟨fun _ _ => rfl, fun _ _ _ => rfl⟩
instance : LawfulElement TypeDef := ⟨fun _ _ => rfl, fun _ _ _ => rfl⟩
instance : LawfulElement EnumDef := ⟨fun _ _ => rfl, fun _ _ _ => rfl⟩
instance : LawfulElement SubsetDef := ⟨fun _ _ => rfl, fun _ _ _ => rfl⟩

section Elements

variable {α : Type} [Element α]

/-- Where an element comes from, if that is known. -/
def provenance? (e : α) : Option String := (Element.metadata e).fromSchema

/-- An element without its provenance. -/
def untagElement (e : α) : α :=
  Element.withMetadata { Element.metadata e with fromSchema := none } e

/-- The provenances of the elements of a table. -/
def provenancesOf (t : Table α) : List (Option String) := t.values.map provenance?

/-- A provenance that is filled in where it is missing. -/
def fillProvenance (origin : String) (p : Option String) : Option String := p.or (some origin)

variable [LawfulElement α] (origin : String)

theorem provenance?_tagElement (e : α) :
    provenance? (tagElement origin e) = fillProvenance origin (provenance? e) := by
  unfold provenance? tagElement
  rw [LawfulElement.metadata_withMetadata]
  rfl

theorem untagElement_tagElement (e : α) : untagElement (tagElement origin e) = untagElement e := by
  unfold untagElement tagElement
  rw [LawfulElement.metadata_withMetadata, LawfulElement.withMetadata_withMetadata]

theorem provenancesOf_map_tagElement (t : Table α) :
    provenancesOf (t.map (tagElement origin)) = (provenancesOf t).map (fillProvenance origin) := by
  unfold provenancesOf
  rw [Table.values_map, List.map_map, List.map_map]
  apply List.map_congr_left
  intro e _
  exact provenance?_tagElement origin e

end Elements

/-- A change that does not show through another is not seen. -/
theorem Table.map_map_of_eq {α β γ : Type} {f : α → β} {g : β → γ} {h : α → γ}
    (hfg : ∀ a, g (f a) = h a) (t : Table α) : (t.map f).map g = t.map h := by
  apply Table.ext
  show (t.entries.map _).map _ = t.entries.map _
  rw [List.map_map]
  apply List.map_congr_left
  intro e _
  exact congrArg (e.1, ·) (hfg e.2)

/-! ### Documents -/

/-- The provenances of a class and of its attributes. -/
def ClassDef.provenances (c : ClassDef) : List (Option String) :=
  provenance? c :: provenancesOf c.attributes

/-- A class and its attributes without their provenances. -/
def ClassDef.untag (c : ClassDef) : ClassDef :=
  untagElement { c with attributes := c.attributes.map untagElement }

theorem ClassDef.provenances_tagProvenance (origin : String) (c : ClassDef) :
    (c.tagProvenance origin).provenances = c.provenances.map (fillProvenance origin) := by
  have hclass := provenance?_tagElement origin
    { c with attributes := c.attributes.map (tagElement origin) }
  have hattributes := provenancesOf_map_tagElement origin c.attributes
  unfold ClassDef.provenances
  rw [List.map_cons, ← hattributes]
  exact congrArg (· :: _) hclass

theorem ClassDef.untag_tagProvenance (origin : String) (c : ClassDef) :
    (c.tagProvenance origin).untag = c.untag := by
  have hattributes : (c.attributes.map (tagElement origin)).map untagElement =
      c.attributes.map untagElement :=
    Table.map_map_of_eq (untagElement_tagElement origin) c.attributes
  show untagElement (tagElement origin
    { c with attributes := (c.attributes.map (tagElement origin)).map untagElement }) = _
  rw [untagElement_tagElement, hattributes]
  rfl

namespace Schema

/-- The provenances of all elements of a document and of the attributes of its classes. -/
def provenances (s : Schema) : List (Option String) :=
  provenancesOf s.subsets ++ provenancesOf s.types ++ provenancesOf s.enums ++
    provenancesOf s.slots ++ s.classes.values.flatMap ClassDef.provenances

/-- A document without provenances. -/
def untag (s : Schema) : Schema :=
  { s with
    subsets := s.subsets.map untagElement
    types := s.types.map untagElement
    enums := s.enums.map untagElement
    slots := s.slots.map untagElement
    classes := s.classes.map ClassDef.untag }

variable (origin : String) (s : Schema)

/-- A provenance that is known stays, one that is missing is filled in. -/
theorem provenances_tagProvenance :
    (s.tagProvenance origin).provenances = s.provenances.map (fillProvenance origin) := by
  have hclasses : (s.classes.map (ClassDef.tagProvenance origin)).values.flatMap
      ClassDef.provenances =
      (s.classes.values.flatMap ClassDef.provenances).map (fillProvenance origin) := by
    rw [Table.values_map, List.flatMap_map, List.map_flatMap]
    congr 1
    funext c
    exact c.provenances_tagProvenance origin
  unfold provenances
  rw [List.map_append, List.map_append, List.map_append, List.map_append, ← hclasses,
    ← provenancesOf_map_tagElement, ← provenancesOf_map_tagElement,
    ← provenancesOf_map_tagElement, ← provenancesOf_map_tagElement]
  rfl

/-- Nothing but provenances is changed. -/
theorem untag_tagProvenance : (s.tagProvenance origin).untag = s.untag := by
  unfold untag tagProvenance
  rw [Table.map_map_of_eq (untagElement_tagElement origin) s.subsets,
    Table.map_map_of_eq (untagElement_tagElement origin) s.types,
    Table.map_map_of_eq (untagElement_tagElement origin) s.enums,
    Table.map_map_of_eq (untagElement_tagElement origin) s.slots,
    Table.map_map_of_eq (ClassDef.untag_tagProvenance origin) s.classes]

end Schema

/-! ### Entry by entry -/

/-- Entries of the same names in the same order, and related values. -/
def Entrywise {α β : Type} (R : α → β → Prop) (es : List (String × α)) (es' : List (String × β)) :
    Prop :=
  List.Forall₂ (fun e e' => e.1 = e'.1 ∧ R e.2 e'.2) es es'

namespace Entrywise

variable {α β : Type} {R : α → β → Prop}

theorem map {f : α → β} (hf : ∀ a, R a (f a)) (es : List (String × α)) :
    Entrywise R es (es.map fun e => (e.1, f e.2)) := by
  induction es with
  | nil => exact .nil
  | cons e es ih => exact .cons ⟨rfl, hf e.2⟩ ih

/-- What is read from the one has been read from the other. -/
theorem rel_lookupKey {es : List (String × α)} {es' : List (String × β)} (h : Entrywise R es es')
    (key : String) : Option.Rel R (lookupKey key es) (lookupKey key es') := by
  induction h with
  | nil => exact .none
  | @cons e e' es es' hhead _ ih =>
    obtain ⟨hkey, hvalue⟩ := hhead
    rw [lookupKey, lookupKey, ← hkey]
    split
    · exact .some hvalue
    · exact ih

theorem values {es : List (String × α)} {es' : List (String × β)} (h : Entrywise R es es') :
    List.Forall₂ R (es.map Prod.snd) (es'.map Prod.snd) := by
  rw [List.forall₂_map_left_iff, List.forall₂_map_right_iff]
  exact h.imp fun _ _ he => he.2

end Entrywise

/-- An element of a document, and the element with a tag: what it was tagged with before, or else
the id of the document, or its name if the id is empty. -/
structure TaggedIn {α : Type} [Element α] (d : Schema) (e e' : α) : Prop where
  tag : provenance? e' = some ((provenance? e).getD (if d.id = "" then d.name else d.id))
  others : untagElement e' = untagElement e

/-- A class of a document, and the class with a tag and tagged attributes. -/
structure ClassDef.TaggedIn (d : Schema) (c c' : ClassDef) : Prop where
  tag : provenance? c' = some ((provenance? c).getD (if d.id = "" then d.name else d.id))
  attributes : Entrywise (SlotFrame.TaggedIn d) c.attributes.entries c'.attributes.entries
  others : untagElement { c' with attributes := c.attributes } = untagElement c

/-- A document, and the document with all its elements tagged. -/
structure Schema.Tagged (d d' : Schema) : Prop where
  classes : Entrywise (ClassDef.TaggedIn d) d.classes.entries d'.classes.entries
  slots : Entrywise (TaggedIn d) d.slots.entries d'.slots.entries
  types : Entrywise (TaggedIn d) d.types.entries d'.types.entries
  enums : Entrywise (TaggedIn d) d.enums.entries d'.enums.entries
  subsets : Entrywise (TaggedIn d) d.subsets.entries d'.subsets.entries
  others : { d' with
    classes := d.classes, slots := d.slots, types := d.types, enums := d.enums
    subsets := d.subsets } = d

section tagging

variable (d : Schema)

theorem Schema.identity_eq : d.identity = if d.id = "" then d.name else d.id := by
  unfold identity
  simp only [String.isEmpty_iff]

theorem taggedIn_tagElement {α : Type} [Element α] [LawfulElement α] (e : α) :
    TaggedIn d e (tagElement d.identity e) where
  tag := by
    rw [provenance?_tagElement, ← d.identity_eq]
    unfold fillProvenance
    cases provenance? e <;> rfl
  others := untagElement_tagElement d.identity e

theorem ClassDef.taggedIn_tagProvenance (c : ClassDef) :
    c.TaggedIn d (c.tagProvenance d.identity) where
  tag := by
    have hclass := taggedIn_tagElement d
      { c with attributes := c.attributes.map (tagElement d.identity) }
    exact hclass.tag
  attributes := .map (taggedIn_tagElement d) c.attributes.entries
  others := untagElement_tagElement d.identity c

/-- To tag a document is to tag every element and to leave everything else alone. -/
theorem Schema.tagged_tagProvenance : d.Tagged (d.tagProvenance d.identity) where
  classes := .map (ClassDef.taggedIn_tagProvenance d) d.classes.entries
  slots := .map (taggedIn_tagElement d) d.slots.entries
  types := .map (taggedIn_tagElement d) d.types.entries
  enums := .map (taggedIn_tagElement d) d.enums.entries
  subsets := .map (taggedIn_tagElement d) d.subsets.entries
  others := rfl

end tagging

end SlotFrame
