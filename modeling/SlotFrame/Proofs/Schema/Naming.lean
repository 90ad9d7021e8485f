import Mathlib.Data.List.Forall2
import SlotFrame.Proofs.Data.Tables
import SlotFrame.Schema.Normalize

/-! # What naming changes

A document names elements by the keys they stand under, and an element may say its name itself. To
name a document is to write the keys as names where none are said: those of elements, of attributes
and refinements in classes, and the texts of permissible values. Nothing else is changed, and what
has a name is not named again.

Main definitions: `LawfulNaming`, `Keywise`, `NamedAfter`, `Schema.Named`.

Main statements: `Schema.normalize_normalize` (naming once is enough) and `Schema.named_normalize`
(what is named, entry by entry). -/

namespace SlotFrame

/-- A name that is written is read back and replaces the one before it, and metadata do not see it.
-/
class LawfulNaming (α : Type) [Element α] : Prop where
  name_rename (n : String) (e : α) : Element.name (Element.rename n e) = n
  rename_name (e : α) : Element.rename (Element.name e) e = e
  rename_rename (m n : String) (e : α) :
    Element.rename m (Element.rename n e) = Element.rename m e
  metadata_rename (n : String) (e : α) : Element.metadata (Element.rename n e) = Element.metadata e
  name_withMetadata (m : Metadata) (e : α) : Element.name (Element.withMetadata m e) = Element.name e
  rename_withMetadata (n : String) (m : Metadata) (e : α) :
    Element.rename n (Element.withMetadata m e) = Element.withMetadata m (Element.rename n e)

instance : LawfulNaming SlotDef :=
  ⟨fun _ _ => rfl, fun _ => rfl, fun _ _ _ => rfl, fun _ _ => rfl, fun _ _ => rfl, fun _ _ _ => rfl⟩
instance : LawfulNaming ClassDef :=
  ⟨fun _ _ => rfl, fun _ => rfl, fun _ _ _ => rfl, fun _ _ => rfl, fun _ _ => rfl, fun _ _ _ => rfl⟩
instance : LawfulNaming TypeDef :=
  ⟨fun _ _ => rfl, fun _ => rfl, fun _ _ _ => rfl, fun _ _ => rfl, fun _ _ => rfl, fun _ _ _ => rfl⟩
instance : LawfulNaming EnumDef :=
  ⟨fun _ _ => rfl, fun _ => rfl, fun _ _ _ => rfl, fun _ _ => rfl, fun _ _ => rfl, fun _ _ _ => rfl⟩
instance : LawfulNaming SubsetDef :=
  ⟨fun _ _ => rfl, fun _ => rfl, fun _ _ _ => rfl, fun _ _ => rfl, fun _ _ => rfl, fun _ _ _ => rfl⟩

/-! ### Names that are taken from keys once -/

section once

variable {α : Type} [Element α]

/-- Elements that are changed otherwise than in their names may be named before or after. -/
theorem nameFromKeys_map (f : α → α)
    (hkeep : ∀ a, Element.name (f a) = Element.name a)
    (hcomm : ∀ n a, Element.rename n (f a) = f (Element.rename n a)) (t : Table α) :
    nameFromKeys (t.map f) = (nameFromKeys t).map f := by
  unfold nameFromKeys Table.map
  rw [Table.mapWithKey_mapWithKey, Table.mapWithKey_mapWithKey]
  congr 1
  funext key a
  rw [hkeep, hcomm, apply_ite f]

variable [LawfulNaming α]

theorem nameFromKeys_nameFromKeys (t : Table α) :
    nameFromKeys (nameFromKeys t) = nameFromKeys t := by
  unfold nameFromKeys
  rw [Table.mapWithKey_mapWithKey]
  congr 1
  funext key a
  by_cases ha : (Element.name a).isEmpty = true
  · rw [if_pos ha, LawfulNaming.name_rename, LawfulNaming.rename_rename, ite_self]
  · rw [if_neg ha, if_neg ha]

/-- Elements that are named and changed otherwise than in their names are not changed again. -/
theorem map_nameFromKeys_idem {f : α → α} (hf : ∀ a, f (f a) = f a)
    (hkeep : ∀ a, Element.name (f a) = Element.name a)
    (hcomm : ∀ n a, Element.rename n (f a) = f (Element.rename n a))
    (t : Table α) : (nameFromKeys ((nameFromKeys t).map f)).map f = (nameFromKeys t).map f := by
  rw [nameFromKeys_map f hkeep hcomm, nameFromKeys_nameFromKeys]
  unfold Table.map
  rw [Table.mapWithKey_mapWithKey]
  congr 1
  funext _ a
  exact hf a

end once

theorem EnumDef.normalize_normalize (d : EnumDef) : d.normalize.normalize = d.normalize := by
  unfold EnumDef.normalize
  dsimp only
  rw [Table.mapWithKey_mapWithKey]
  congr 2
  funext key v
  by_cases hv : v.text.isEmpty = true
  · rw [if_pos hv]
    dsimp only
    rw [ite_self]
  · rw [if_neg hv, if_neg hv]

theorem ClassDef.normalize_normalize (c : ClassDef) : c.normalize.normalize = c.normalize := by
  unfold ClassDef.normalize
  rw [nameFromKeys_nameFromKeys, nameFromKeys_nameFromKeys]

/-- Elements that are named are not named again. -/
theorem Schema.normalize_normalize (s : Schema) : s.normalize.normalize = s.normalize := by
  have henums := map_nameFromKeys_idem EnumDef.normalize_normalize (fun _ => rfl)
    (fun _ _ => rfl) s.enums
  have hclasses := map_nameFromKeys_idem ClassDef.normalize_normalize (fun _ => rfl)
    (fun _ _ => rfl) s.classes
  unfold Schema.normalize
  dsimp only
  rw [nameFromKeys_nameFromKeys s.subsets, nameFromKeys_nameFromKeys s.types,
    nameFromKeys_nameFromKeys s.slots, henums, hclasses]

/-! ### Entry by entry -/

/-- Tables of the same keys in the same order, with values that are related at each key. -/
def Keywise {α β : Type} (R : String → α → β → Prop) (t : Table α) (u : Table β) : Prop :=
  List.Forall₂ (fun e e' => e.1 = e'.1 ∧ R e.1 e.2 e'.2) t.entries u.entries

namespace Keywise

variable {α β γ : Type} {R : String → α → β → Prop}

theorem mapWithKey {f : String → α → β} (hf : ∀ key a, R key a (f key a)) (t : Table α) :
    Keywise R t (t.mapWithKey f) := by
  unfold Keywise Table.mapWithKey
  rw [List.forall₂_map_right_iff, List.forall₂_same]
  exact fun e _ => ⟨rfl, hf e.1 e.2⟩

theorem map {S : String → α → γ → Prop} {f : β → γ} {t : Table α} {u : Table β}
    (h : Keywise R t u) (hf : ∀ key a b, R key a b → S key a (f b)) : Keywise S t (u.map f) := by
  unfold Keywise Table.map Table.mapWithKey
  rw [List.forall₂_map_right_iff]
  exact h.imp fun e e' he => ⟨he.1, hf e.1 e.2 e'.2 he.2⟩

end Keywise

/-- An element, and the element under the name of its key if it had no name; nothing else of it has
been changed. -/
structure NamedAfter {α : Type} [Element α] (key : String) (e e' : α) : Prop where
  name : Element.name e' = if Element.name e = "" then key else Element.name e
  others : Element.rename (Element.name e) e' = e

/-- A permissible value, and the value with its key as its text if it had none. -/
structure PermissibleValue.WrittenAfter (key : String) (v v' : PermissibleValue) : Prop where
  text : v'.text = if v.text = "" then key else v.text
  others : { v' with text := v.text } = v

/-- An enum, and the enum with a name, and with a text for each of its values. -/
structure EnumDef.NamedAfter (key : String) (e e' : EnumDef) : Prop where
  name : e'.name = if e.name = "" then key else e.name
  permissibleValues : Keywise PermissibleValue.WrittenAfter e.permissibleValues e'.permissibleValues
  others : { e' with name := e.name, permissibleValues := e.permissibleValues } = e

/-- A class, and the class with a name, and with a name for each of its attributes and refinements.
-/
structure ClassDef.NamedAfter (key : String) (c c' : ClassDef) : Prop where
  name : c'.name = if c.name = "" then key else c.name
  attributes : Keywise SlotFrame.NamedAfter c.attributes c'.attributes
  slotUsage : Keywise SlotFrame.NamedAfter c.slotUsage c'.slotUsage
  others : { c' with name := c.name, attributes := c.attributes, slotUsage := c.slotUsage } = c

/-- A document, and the document with a name for each of its elements. -/
structure Schema.Named (s s' : Schema) : Prop where
  classes : Keywise ClassDef.NamedAfter s.classes s'.classes
  slots : Keywise NamedAfter s.slots s'.slots
  types : Keywise NamedAfter s.types s'.types
  enums : Keywise EnumDef.NamedAfter s.enums s'.enums
  subsets : Keywise NamedAfter s.subsets s'.subsets
  others : { s' with
    classes := s.classes, slots := s.slots, types := s.types, enums := s.enums
    subsets := s.subsets } = s

theorem keywise_nameFromKeys {α : Type} [Element α] [LawfulNaming α] (t : Table α) :
    Keywise NamedAfter t (nameFromKeys t) := by
  refine .mapWithKey (fun key e => ?_) t
  by_cases he : Element.name e = ""
  · rw [if_pos (String.isEmpty_iff.2 he)]
    refine ⟨?_, ?_⟩
    · rw [LawfulNaming.name_rename, if_pos he]
    · rw [LawfulNaming.rename_rename, LawfulNaming.rename_name]
  · rw [if_neg fun hempty => he (String.isEmpty_iff.1 hempty)]
    exact ⟨(if_neg he).symm, LawfulNaming.rename_name e⟩

theorem EnumDef.namedAfter_normalize {key : String} {e e' : EnumDef}
    (h : SlotFrame.NamedAfter key e e') : e.NamedAfter key e'.normalize where
  name := h.name
  permissibleValues := by
    have hvalues : e'.permissibleValues = e.permissibleValues :=
      (congrArg EnumDef.permissibleValues h.others :)
    unfold normalize
    rw [hvalues]
    refine .mapWithKey (fun key v => ?_) e.permissibleValues
    by_cases hv : v.text = ""
    · rw [if_pos (String.isEmpty_iff.2 hv)]
      exact ⟨(if_pos hv).symm, rfl⟩
    · rw [if_neg fun hempty => hv (String.isEmpty_iff.1 hempty)]
      exact ⟨(if_neg hv).symm, rfl⟩
  others := congrArg (fun d : EnumDef => { d with permissibleValues := e.permissibleValues })
    h.others

theorem ClassDef.namedAfter_normalize {key : String} {c c' : ClassDef}
    (h : SlotFrame.NamedAfter key c c') : c.NamedAfter key c'.normalize where
  name := h.name
  attributes := by
    have hattributes : c'.attributes = c.attributes :=
      (congrArg ClassDef.attributes h.others :)
    unfold normalize
    rw [hattributes]
    exact keywise_nameFromKeys c.attributes
  slotUsage := by
    have husage : c'.slotUsage = c.slotUsage :=
      (congrArg ClassDef.slotUsage h.others :)
    unfold normalize
    rw [husage]
    exact keywise_nameFromKeys c.slotUsage
  others := congrArg
    (fun d : ClassDef => { d with attributes := c.attributes, slotUsage := c.slotUsage }) h.others

/-- To name a document is to give names where there are none and to leave everything else alone. -/
theorem Schema.named_normalize (s : Schema) : s.Named s.normalize where
  classes := (keywise_nameFromKeys s.classes).map fun _ _ _ => ClassDef.namedAfter_normalize
  slots := keywise_nameFromKeys s.slots
  types := keywise_nameFromKeys s.types
  enums := (keywise_nameFromKeys s.enums).map fun _ _ _ => EnumDef.namedAfter_normalize
  subsets := keywise_nameFromKeys s.subsets
  others := rfl

end SlotFrame
