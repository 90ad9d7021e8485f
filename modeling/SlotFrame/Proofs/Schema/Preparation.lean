import SlotFrame.Proofs.Schema.Naming
import SlotFrame.Proofs.Schema.Provenance

/-! # Naming and tagging

Before a document is used its elements are named after their keys and tagged with where they come
from, each perhaps several times and in any order. Naming changes names alone and tagging changes
provenances alone, so the one does not see the other; a name or a provenance that has been given is
not given again. What comes of any number of such steps is therefore what one naming and the first
tagging make of the document.

Main definitions: `Preparation`, `Schema.prepare`.

Main statements: `Schema.normalize_tagProvenance` (naming and tagging commute),
`Schema.tagProvenance_tagProvenance` (the first tag stays) and `Schema.prepare_settles`. -/

namespace SlotFrame

/-! ### Elements -/

section Elements

variable {α : Type} [Element α] (origin : String)

/-- A tag that has been given stays. -/
theorem tagElement_tagElement [LawfulElement α] (first : String) (e : α) :
    tagElement origin (tagElement first e) = tagElement first e := by
  have hfilled : ∀ p : Option String, (p.or (some first)).or (some origin) = p.or (some first) := by
    intro p
    cases p <;> rfl
  unfold tagElement
  dsimp only
  rw [LawfulElement.metadata_withMetadata, LawfulElement.withMetadata_withMetadata]
  dsimp only
  rw [hfilled]

variable [LawfulNaming α]

theorem name_tagElement (e : α) : Element.name (tagElement origin e) = Element.name e :=
  LawfulNaming.name_withMetadata _ e

theorem rename_tagElement (n : String) (e : α) :
    Element.rename n (tagElement origin e) = tagElement origin (Element.rename n e) := by
  unfold tagElement
  dsimp only
  rw [LawfulNaming.rename_withMetadata, LawfulNaming.metadata_rename]

theorem nameFromKeys_map_tagElement (t : Table α) :
    nameFromKeys (t.map (tagElement origin)) = (nameFromKeys t).map (tagElement origin) :=
  nameFromKeys_map _ (name_tagElement origin) (rename_tagElement origin) t

end Elements

/-! ### Documents -/

section Documents

variable (origin : String)

theorem ClassDef.tagProvenance_tagProvenance (first : String) (c : ClassDef) :
    (c.tagProvenance first).tagProvenance origin = c.tagProvenance first := by
  have hattributes : (c.attributes.map (tagElement first)).map (tagElement origin) =
      c.attributes.map (tagElement first) :=
    Table.map_map_of_eq (tagElement_tagElement origin first) c.attributes
  show tagElement origin (tagElement first
    { c with attributes := (c.attributes.map (tagElement first)).map (tagElement origin) }) = _
  rw [hattributes, tagElement_tagElement]
  rfl

theorem ClassDef.normalize_tagProvenance (c : ClassDef) :
    (c.tagProvenance origin).normalize = c.normalize.tagProvenance origin := by
  have hattributes := nameFromKeys_map_tagElement origin c.attributes
  show tagElement origin { c with
    attributes := nameFromKeys (c.attributes.map (tagElement origin))
    slotUsage := nameFromKeys c.slotUsage } = _
  rw [hattributes]
  rfl

namespace Schema

variable (s : Schema)

/-- Elements may be named before a document is tagged or after. -/
theorem normalize_tagProvenance :
    (s.tagProvenance origin).normalize = s.normalize.tagProvenance origin := by
  have hsubsets := nameFromKeys_map_tagElement origin s.subsets
  have htypes := nameFromKeys_map_tagElement origin s.types
  have hslots := nameFromKeys_map_tagElement origin s.slots
  have henums := nameFromKeys_map_tagElement origin s.enums
  have hclasses := nameFromKeys_map (ClassDef.tagProvenance origin) (fun _ => rfl) (fun _ _ => rfl)
    s.classes
  have hvalues := Table.map_comm (f := EnumDef.normalize) (g := tagElement origin) (fun _ => rfl)
    (nameFromKeys s.enums)
  have hattributes := Table.map_comm (ClassDef.normalize_tagProvenance origin)
    (nameFromKeys s.classes)
  unfold normalize tagProvenance
  dsimp only
  rw [hsubsets, htypes, hslots, henums, hclasses, hvalues, hattributes]

/-- A document that has been tagged stays as it is tagged. -/
theorem tagProvenance_tagProvenance (first : String) :
    (s.tagProvenance first).tagProvenance origin = s.tagProvenance first := by
  unfold tagProvenance
  dsimp only
  rw [Table.map_map_of_eq (tagElement_tagElement origin first) s.subsets,
    Table.map_map_of_eq (tagElement_tagElement origin first) s.types,
    Table.map_map_of_eq (tagElement_tagElement origin first) s.enums,
    Table.map_map_of_eq (tagElement_tagElement origin first) s.slots,
    Table.map_map_of_eq (ClassDef.tagProvenance_tagProvenance origin first) s.classes]

end Schema

end Documents

/-! ### Any number of steps -/

/-- A step that prepares a document. -/
inductive Preparation where
  | name
  | tag (origin : String)
  deriving DecidableEq, Repr

namespace Preparation

/-- What a step makes of a document. -/
def apply : Preparation → Schema → Schema
  | name, s => s.normalize
  | tag origin, s => s.tagProvenance origin

/-- What a step tags with, if it tags. -/
def origin? : Preparation → Option String
  | name => none
  | tag origin => some origin

end Preparation

namespace Schema

/-- A document after some steps. -/
def prepare (s : Schema) (steps : List Preparation) : Schema :=
  steps.foldl (fun s p => p.apply s) s

/-- A document that is named if naming is among some steps. -/
def namedBy (steps : List Preparation) (s : Schema) : Schema :=
  if .name ∈ steps then s.normalize else s

/-- A document with the first tag of some steps, if they tag at all. -/
def taggedBy (steps : List Preparation) (s : Schema) : Schema :=
  match steps.findSome? Preparation.origin? with
  | some first => s.tagProvenance first
  | none => s

theorem namedBy_tagProvenance (steps : List Preparation) (origin : String) (s : Schema) :
    namedBy steps (s.tagProvenance origin) = (namedBy steps s).tagProvenance origin := by
  unfold namedBy
  rw [normalize_tagProvenance, apply_ite (tagProvenance origin)]

theorem namedBy_taggedBy (steps steps' : List Preparation) (s : Schema) :
    namedBy steps (taggedBy steps' s) = taggedBy steps' (namedBy steps s) := by
  unfold taggedBy
  cases steps'.findSome? Preparation.origin? with
  | none => rfl
  | some first => exact namedBy_tagProvenance steps first s

/-- A document that is named first needs no other naming. -/
theorem namedBy_normalize (steps : List Preparation) (s : Schema) :
    namedBy steps s.normalize = s.normalize := by
  unfold namedBy
  rw [normalize_normalize, ite_self]

/-- A document that is tagged first takes no other tag. -/
theorem taggedBy_tagProvenance (steps : List Preparation) (origin : String) (s : Schema) :
    taggedBy steps (s.tagProvenance origin) = s.tagProvenance origin := by
  unfold taggedBy
  cases steps.findSome? Preparation.origin? with
  | none => rfl
  | some later => exact s.tagProvenance_tagProvenance later origin

/-- The first step decides about its own kind, the steps after it about the other. -/
theorem prepare_eq (s : Schema) (steps : List Preparation) :
    s.prepare steps = taggedBy steps (namedBy steps s) := by
  induction steps generalizing s with
  | nil => rfl
  | cons p steps ih =>
    show (p.apply s).prepare steps = _
    rw [ih]
    cases p with
    | name =>
      have hname : namedBy (.name :: steps) s = s.normalize := if_pos List.mem_cons_self
      show taggedBy steps (namedBy steps s.normalize) = taggedBy steps _
      rw [hname, namedBy_normalize]
    | tag origin =>
      have hname : namedBy (.tag origin :: steps) s = namedBy steps s := by
        simp [namedBy]
      show taggedBy steps (namedBy steps (s.tagProvenance origin)) = (namedBy _ s).tagProvenance _
      rw [hname, namedBy_tagProvenance, taggedBy_tagProvenance]

/-- **Naming and tagging commute and settle.** Any steps that name and tag a document come to naming
it once, if they name it at all, and tagging it with the first of their tags, if they tag it, in
either order. To name a document is to give every element without a name the key that it stands
under as its name, and every permissible value without a text its key as its text, and to leave
everything else alone. -/
theorem prepare_settles (s : Schema) (steps : List Preparation) :
    s.prepare steps = namedBy steps (taggedBy steps s) ∧
      s.prepare steps = taggedBy steps (namedBy steps s) ∧ s.Named s.normalize :=
  ⟨(s.prepare_eq steps).trans (namedBy_taggedBy steps steps s).symm, s.prepare_eq steps,
    s.named_normalize⟩

/-- A document tagged as it is imported, named as it is read and again as it is shown. -/
example :
    let ship : ClassDef :=
      { attributes := Table.ofList [("flag", {}), ("quay", { name := "berth" })] }
    let s : Schema := { classes := Table.ofList [("Ship", ship)] }
    let s' := s.prepare [.tag "fleet", .name, .tag "harbour", .name]
    s'.provenances = [some "fleet", some "fleet", some "fleet"] ∧
      s'.classes.values.map ClassDef.name = ["Ship"] ∧
      (s'.classes.values.flatMap fun c => c.attributes.values.map SlotDef.name) =
        ["flag", "berth"] := by
  decide +kernel

end Schema

end SlotFrame
