import Mathlib.Tactic.MkIffOfInductiveProp
import SlotFrame.Proofs.Schema.Absorption

/-! # Covering field by field

A definition covers another one exactly if it sets all that the other one sets: every option, every
name, list and table of annotations that is not empty, and every key of the fields without a place
of their own. Which values it sets them to plays no part.

Main definitions: `Metadata.SetsAllOf` and `SlotDef.SetsAllOf`.

Main statement: `SlotDef.covers_iff_setsAllOf`. -/

namespace SlotFrame

variable {α : Type}

/-! ### Fields that filling leaves alone -/

theorem Option.or_eq_left_iff {x y : Option α} : x.or y = x ↔ (y.isSome → x.isSome) := by
  cases x with
  | none => cases y <;> simp
  | some a => simp

theorem fillName_eq_left_iff {x y : String} : fillName x y = x ↔ (y ≠ "" → x ≠ "") := by
  unfold fillName
  by_cases hx : x = ""
  · subst hx
    simp
  · have hfilled : ¬ x.isEmpty = true := fun h => hx (String.isEmpty_iff.1 h)
    rw [if_neg hfilled]
    simp [hx]

theorem fillList_eq_left_iff {xs ys : List α} : fillList xs ys = xs ↔ (ys ≠ [] → xs ≠ []) := by
  cases xs with
  | nil => simp [fillList]
  | cons x xs => simp [fillList]

theorem fillTable_eq_left_iff {t u : Table α} : fillTable t u = t ↔ (u ≠ ∅ → t ≠ ∅) := by
  unfold fillTable
  by_cases ht : t = ∅
  · have hempty : t.isEmpty = true := ht ▸ rfl
    rw [if_pos hempty, ht]
    simp
  · have hfilled : ¬ t.isEmpty = true := fun h => ht (Table.ext (List.isEmpty_iff.1 h))
    rw [if_neg hfilled]
    simp [ht]

theorem Table.addMissing_eq_left_iff {t u : Table α} :
    t.addMissing u = t ↔ ∀ key ∈ u.keys, key ∈ t.keys := by
  constructor
  · intro h key hkey
    rw [← h, mem_keys_iff, get?_addMissing, Option.isSome_or, (mem_keys_iff u key).1 hkey,
      Bool.or_true]
  · intro h
    apply ext_get?
    · have hnone : u.keys.filter (· ∉ t.keys) = [] := by
        rw [List.filter_eq_nil_iff]
        intro key hkey
        simp [h key hkey]
      rw [keys_addMissing_eq, hnone, List.append_nil]
    · intro key
      rw [get?_addMissing, SlotFrame.Option.or_eq_left_iff, ← mem_keys_iff, ← mem_keys_iff]
      exact h key

/-! ### Metadata -/

/-- Metadata that sets all that some other metadata sets. -/
@[mk_iff] structure Metadata.SetsAllOf (m n : Metadata) : Prop where
  description : n.description.isSome → m.description.isSome
  title : n.title.isSome → m.title.isSome
  deprecated : n.deprecated.isSome → m.deprecated.isSome
  rank : n.rank.isSome → m.rank.isSome
  fromSchema : n.fromSchema.isSome → m.fromSchema.isSome
  aliases : n.aliases ≠ [] → m.aliases ≠ []
  inSubset : n.inSubset ≠ [] → m.inSubset ≠ []
  seeAlso : n.seeAlso ≠ [] → m.seeAlso ≠ []
  comments : n.comments ≠ [] → m.comments ≠ []
  notes : n.notes ≠ [] → m.notes ≠ []
  todos : n.todos ≠ [] → m.todos ≠ []
  exactMappings : n.exactMappings ≠ [] → m.exactMappings ≠ []
  closeMappings : n.closeMappings ≠ [] → m.closeMappings ≠ []
  relatedMappings : n.relatedMappings ≠ [] → m.relatedMappings ≠ []
  narrowMappings : n.narrowMappings ≠ [] → m.narrowMappings ≠ []
  broadMappings : n.broadMappings ≠ [] → m.broadMappings ≠ []
  annotations : n.annotations ≠ ∅ → m.annotations ≠ ∅
  extra : ∀ key ∈ n.extra.keys, key ∈ m.extra.keys

theorem Metadata.fill_eq_left_iff {m n : Metadata} : m.fill n = m ↔ m.SetsAllOf n := by
  rw [Metadata.ext_iff, setsAllOf_iff]
  simp only [fill, SlotFrame.Option.or_eq_left_iff, fillList_eq_left_iff, fillTable_eq_left_iff,
    Table.addMissing_eq_left_iff]

/-! ### Slots -/

namespace SlotDef

/-- A slot that sets all that some other slot sets. -/
@[mk_iff] structure SetsAllOf (d e : SlotDef) : Prop where
  name : e.name ≠ "" → d.name ≠ ""
  isA : e.isA.isSome → d.isA.isSome
  mixins : e.mixins ≠ [] → d.mixins ≠ []
  isAbstract : e.isAbstract.isSome → d.isAbstract.isSome
  isMixin : e.isMixin.isSome → d.isMixin.isSome
  range : e.range.isSome → d.range.isSome
  domain : e.domain.isSome → d.domain.isSome
  required : e.required.isSome → d.required.isSome
  recommended : e.recommended.isSome → d.recommended.isSome
  multivalued : e.multivalued.isSome → d.multivalued.isSome
  identifier : e.identifier.isSome → d.identifier.isSome
  key : e.key.isSome → d.key.isSome
  designatesType : e.designatesType.isSome → d.designatesType.isSome
  inlined : e.inlined.isSome → d.inlined.isSome
  inlinedAsList : e.inlinedAsList.isSome → d.inlinedAsList.isSome
  slotUri : e.slotUri.isSome → d.slotUri.isSome
  pattern : e.pattern.isSome → d.pattern.isSome
  ifAbsent : e.ifAbsent.isSome → d.ifAbsent.isSome
  minimumValue : e.minimumValue.isSome → d.minimumValue.isSome
  maximumValue : e.maximumValue.isSome → d.maximumValue.isSome
  owner : e.owner.isSome → d.owner.isSome
  metadata : d.metadata.SetsAllOf e.metadata

/-- Filling leaves a definition as it is exactly if it sets all that it would be filled with. -/
theorem covers_iff_setsAllOf {d e : SlotDef} : d.Covers e ↔ d.SetsAllOf e := by
  unfold Covers
  rw [SlotDef.ext_iff, setsAllOf_iff]
  simp only [fill, SlotFrame.Option.or_eq_left_iff, fillName_eq_left_iff, fillList_eq_left_iff,
    Metadata.fill_eq_left_iff]

end SlotDef

end SlotFrame
