import Mathlib.Tactic.MkIffOfInductiveProp
import SlotFrame.Proofs.Schema.Absorption

/-! # The laws of filling

Filling is an idempotent monoid: a blank definition fills nothing and is filled up to what fills it,
it does not matter how fillings are grouped, and what was filled already fills nothing more. So of a
list of definitions only the first occurrence of each counts. What a definition sets it keeps: the
definitions that it is filled up to are exactly those that extend it, which set all that it sets to
the same values.

Main definitions: `Metadata.Extends` and its companions for slots, types and classes, `FillLaws`.

Main statements: `FillLaws.of_absorb` (which laws entail the others) and `fillLaws_definitions`. -/

namespace SlotFrame

variable {α : Type}

/-! ### Fields that filling gives back -/

theorem Option.or_eq_right_iff {x y : Option α} : x.or y = y ↔ ∀ a, x = some a → y = some a := by
  cases x with
  | none => simp
  | some a => simp [eq_comm]

theorem fillName_eq_right_iff {x y : String} : fillName x y = y ↔ (x ≠ "" → y = x) := by
  unfold fillName
  by_cases hx : x = ""
  · simp [hx]
  · have hfilled : ¬ x.isEmpty = true := fun h => hx (String.isEmpty_iff.1 h)
    rw [if_neg hfilled]
    simp [hx, eq_comm]

theorem fillList_eq_right_iff {xs ys : List α} : fillList xs ys = ys ↔ (xs ≠ [] → ys = xs) := by
  cases xs with
  | nil => simp [fillList]
  | cons x xs => simp [fillList, eq_comm]

theorem fillTable_eq_right_iff {t u : Table α} : fillTable t u = u ↔ (t ≠ ∅ → u = t) := by
  unfold fillTable
  by_cases ht : t = ∅
  · have hempty : t.isEmpty = true := ht ▸ rfl
    rw [if_pos hempty]
    simp [ht]
  · have hfilled : ¬ t.isEmpty = true := fun h => ht (Table.ext (List.isEmpty_iff.1 h))
    rw [if_neg hfilled]
    simp [ht, eq_comm]

/-- Adding to a table what a table has that begins with it gives that table. -/
theorem Table.addMissing_eq_right_iff {t u : Table α} : t.addMissing u = u ↔
    (∀ key a, t.get? key = some a → u.get? key = some a) ∧ t.keys <+: u.keys := by
  constructor
  · intro h
    refine ⟨fun key => ?_, ?_⟩
    · rw [← SlotFrame.Option.or_eq_right_iff, ← get?_addMissing, h]
    · rw [← h, keys_addMissing_eq]
      exact List.prefix_append _ _
  · rintro ⟨hget, rest, hkeys⟩
    have hnodup := u.nodup_keys
    rw [← hkeys, List.nodup_append] at hnodup
    have hnone : t.keys.filter (· ∉ t.keys) = [] := by
      rw [List.filter_eq_nil_iff]
      intro key hkey
      simp [hkey]
    have hrest : rest.filter (· ∉ t.keys) = rest := by
      rw [List.filter_eq_self]
      intro key hkey
      simpa using fun hmem => hnodup.2.2 key hmem key hkey rfl
    apply ext_get?
    · rw [keys_addMissing_eq, ← hkeys, List.filter_append, hnone, hrest, List.nil_append]
    · intro key
      rw [get?_addMissing, SlotFrame.Option.or_eq_right_iff]
      exact hget key

/-! ### Definitions that extend one another -/

/-- Metadata that has all that some other metadata sets, with the same values; the fields without a
place of their own stand in front, in the same order. -/
@[mk_iff] structure Metadata.Extends (m n : Metadata) : Prop where
  description : ∀ a, n.description = some a → m.description = some a
  title : ∀ a, n.title = some a → m.title = some a
  deprecated : ∀ a, n.deprecated = some a → m.deprecated = some a
  rank : ∀ a, n.rank = some a → m.rank = some a
  fromSchema : ∀ a, n.fromSchema = some a → m.fromSchema = some a
  aliases : n.aliases ≠ [] → m.aliases = n.aliases
  inSubset : n.inSubset ≠ [] → m.inSubset = n.inSubset
  seeAlso : n.seeAlso ≠ [] → m.seeAlso = n.seeAlso
  comments : n.comments ≠ [] → m.comments = n.comments
  notes : n.notes ≠ [] → m.notes = n.notes
  todos : n.todos ≠ [] → m.todos = n.todos
  exactMappings : n.exactMappings ≠ [] → m.exactMappings = n.exactMappings
  closeMappings : n.closeMappings ≠ [] → m.closeMappings = n.closeMappings
  relatedMappings : n.relatedMappings ≠ [] → m.relatedMappings = n.relatedMappings
  narrowMappings : n.narrowMappings ≠ [] → m.narrowMappings = n.narrowMappings
  broadMappings : n.broadMappings ≠ [] → m.broadMappings = n.broadMappings
  annotations : n.annotations ≠ ∅ → m.annotations = n.annotations
  extra : ∀ key a, n.extra.get? key = some a → m.extra.get? key = some a
  extra_keys : n.extra.keys <+: m.extra.keys

/-- A slot that has all that another one sets, with the same values. -/
@[mk_iff] structure SlotDef.Extends (d e : SlotDef) : Prop where
  name : e.name ≠ "" → d.name = e.name
  isA : ∀ a, e.isA = some a → d.isA = some a
  mixins : e.mixins ≠ [] → d.mixins = e.mixins
  isAbstract : ∀ a, e.isAbstract = some a → d.isAbstract = some a
  isMixin : ∀ a, e.isMixin = some a → d.isMixin = some a
  range : ∀ a, e.range = some a → d.range = some a
  domain : ∀ a, e.domain = some a → d.domain = some a
  required : ∀ a, e.required = some a → d.required = some a
  recommended : ∀ a, e.recommended = some a → d.recommended = some a
  multivalued : ∀ a, e.multivalued = some a → d.multivalued = some a
  identifier : ∀ a, e.identifier = some a → d.identifier = some a
  key : ∀ a, e.key = some a → d.key = some a
  designatesType : ∀ a, e.designatesType = some a → d.designatesType = some a
  inlined : ∀ a, e.inlined = some a → d.inlined = some a
  inlinedAsList : ∀ a, e.inlinedAsList = some a → d.inlinedAsList = some a
  slotUri : ∀ a, e.slotUri = some a → d.slotUri = some a
  pattern : ∀ a, e.pattern = some a → d.pattern = some a
  ifAbsent : ∀ a, e.ifAbsent = some a → d.ifAbsent = some a
  minimumValue : ∀ a, e.minimumValue = some a → d.minimumValue = some a
  maximumValue : ∀ a, e.maximumValue = some a → d.maximumValue = some a
  owner : ∀ a, e.owner = some a → d.owner = some a
  metadata : d.metadata.Extends e.metadata

/-- A type that has all that another one sets, with the same values. -/
@[mk_iff] structure TypeDef.Extends (d e : TypeDef) : Prop where
  name : e.name ≠ "" → d.name = e.name
  typeOf : ∀ a, e.typeOf = some a → d.typeOf = some a
  base : ∀ a, e.base = some a → d.base = some a
  uri : ∀ a, e.uri = some a → d.uri = some a
  representation : ∀ a, e.representation = some a → d.representation = some a
  pattern : ∀ a, e.pattern = some a → d.pattern = some a
  minimumValue : ∀ a, e.minimumValue = some a → d.minimumValue = some a
  maximumValue : ∀ a, e.maximumValue = some a → d.maximumValue = some a
  metadata : d.metadata.Extends e.metadata

/-- A class that has all that another one sets, with the same values. -/
@[mk_iff] structure ClassDef.Extends (d e : ClassDef) : Prop where
  name : e.name ≠ "" → d.name = e.name
  isA : ∀ a, e.isA = some a → d.isA = some a
  mixins : e.mixins ≠ [] → d.mixins = e.mixins
  isAbstract : ∀ a, e.isAbstract = some a → d.isAbstract = some a
  isMixin : ∀ a, e.isMixin = some a → d.isMixin = some a
  slots : e.slots ≠ [] → d.slots = e.slots
  slotUsage : e.slotUsage ≠ ∅ → d.slotUsage = e.slotUsage
  attributes : e.attributes ≠ ∅ → d.attributes = e.attributes
  classUri : ∀ a, e.classUri = some a → d.classUri = some a
  treeRoot : ∀ a, e.treeRoot = some a → d.treeRoot = some a
  metadata : d.metadata.Extends e.metadata

theorem Metadata.fill_eq_right_iff {m n : Metadata} : n.fill m = m ↔ m.Extends n := by
  rw [Metadata.ext_iff, extends_iff]
  simp only [fill, SlotFrame.Option.or_eq_right_iff, fillList_eq_right_iff, fillTable_eq_right_iff,
    Table.addMissing_eq_right_iff]

theorem SlotDef.fill_eq_right_iff {d e : SlotDef} : e.fill d = d ↔ d.Extends e := by
  rw [SlotDef.ext_iff, extends_iff]
  simp only [fill, SlotFrame.Option.or_eq_right_iff, fillName_eq_right_iff, fillList_eq_right_iff,
    Metadata.fill_eq_right_iff]

theorem TypeDef.fill_eq_right_iff {d e : TypeDef} : e.fill d = d ↔ d.Extends e := by
  rw [TypeDef.ext_iff, extends_iff]
  simp only [fill, SlotFrame.Option.or_eq_right_iff, fillName_eq_right_iff,
    Metadata.fill_eq_right_iff]

theorem ClassDef.fill_eq_right_iff {d e : ClassDef} : e.fill d = d ↔ d.Extends e := by
  rw [ClassDef.ext_iff, extends_iff]
  simp only [fill, SlotFrame.Option.or_eq_right_iff, fillName_eq_right_iff, fillList_eq_right_iff,
    fillTable_eq_right_iff, Metadata.fill_eq_right_iff]

/-! ### Types and classes -/

namespace TypeDef

theorem fill_assoc (x y z : TypeDef) : (x.fill y).fill z = x.fill (y.fill z) := by
  simp only [fill, Option.or_assoc, fillName_assoc, Metadata.fill_assoc]

theorem fill_absorb (x y : TypeDef) : (x.fill y).fill x = x.fill y := by
  simp only [fill, SlotFrame.Option.or_or_self, fillName_absorb, Metadata.fill_absorb]

theorem fill_empty (x : TypeDef) : x.fill {} = x := by
  simp only [fill, Option.or_none, fillName_empty, Metadata.fill_empty]

theorem empty_fill (x : TypeDef) : fill {} x = x := by
  have hmetadata := Metadata.empty_fill x.metadata
  exact TypeDef.ext rfl rfl rfl rfl rfl rfl rfl rfl hmetadata

end TypeDef

namespace ClassDef

theorem fill_assoc (x y z : ClassDef) : (x.fill y).fill z = x.fill (y.fill z) := by
  simp only [fill, Option.or_assoc, fillName_assoc, fillList_assoc, fillTable_assoc,
    Metadata.fill_assoc]

theorem fill_absorb (x y : ClassDef) : (x.fill y).fill x = x.fill y := by
  simp only [fill, SlotFrame.Option.or_or_self, fillName_absorb, fillList_absorb, fillTable_absorb,
    Metadata.fill_absorb]

theorem fill_empty (x : ClassDef) : x.fill {} = x := by
  simp only [fill, Option.or_none, fillName_empty, fillList_nil, fillTable_empty,
    Metadata.fill_empty]

theorem empty_fill (x : ClassDef) : fill {} x = x := by
  have hmetadata := Metadata.empty_fill x.metadata
  exact ClassDef.ext rfl rfl rfl rfl rfl rfl rfl rfl rfl rfl hmetadata

end ClassDef

/-! ### Idempotent monoids -/

open Classical in
/-- The laws of filling: an idempotent monoid whose unit is blank, in which what stands in front is
kept and only the first occurrence of each counts. -/
structure FillLaws (fill : α → α → α) (blank : α) (Extends : α → α → Prop) : Prop where
  blank_fill : ∀ x, fill blank x = x
  fill_blank : ∀ x, fill x blank = x
  assoc : ∀ x y z, fill (fill x y) z = fill x (fill y z)
  self : ∀ x, fill x x = x
  absorb : ∀ x y, fill (fill x y) x = fill x y
  keeps : ∀ x y, Extends (fill x y) x
  firsts : ∀ xs : List α, xs.eraseDups.foldl fill blank = xs.foldl fill blank

namespace FillLaws

section firsts

variable {fill : α → α → α} (assoc : ∀ x y z, fill (fill x y) z = fill x (fill y z))
  (absorb : ∀ x y, fill (fill x y) x = fill x y)

include assoc absorb

/-- What is covered at the beginning is still covered once more has been filled in, so filling it in
again can be left out. -/
theorem foldl_filter [DecidableEq α] {d a : α} (hd : fill d a = d) (xs : List α) :
    (xs.filter fun x => !x == a).foldl fill d = xs.foldl fill d := by
  induction xs generalizing d with
  | nil => rfl
  | cons x xs ih =>
    by_cases hx : x = a
    · have hout : ¬ (!x == a) = true := by simp [hx]
      rw [List.filter_cons, if_neg hout, List.foldl_cons, hx, hd]
      exact ih hd
    · have hin : (!x == a) = true := by simp [hx]
      have hcovered : fill (fill d x) a = fill d x := by
        calc fill (fill d x) a = fill (fill (fill d a) x) a := by rw [hd]
          _ = fill d (fill (fill a x) a) := by rw [assoc d a x, assoc d]
          _ = fill (fill d a) x := by rw [absorb, assoc]
          _ = fill d x := by rw [hd]
      rw [List.filter_cons, if_pos hin, List.foldl_cons, List.foldl_cons]
      exact ih hcovered

/-- Only the first occurrence of each counts, whatever is filled. -/
theorem foldl_eraseDups [DecidableEq α] (self : ∀ x, fill x x = x) (d : α) (xs : List α) :
    xs.eraseDups.foldl fill d = xs.foldl fill d := by
  match xs with
  | [] => rfl
  | a :: xs =>
    have hcovered : fill (fill d a) a = fill d a := by rw [assoc, self]
    rw [List.eraseDups_cons, List.foldl_cons, List.foldl_cons,
      foldl_eraseDups self (fill d a) (xs.filter fun x => !x == a),
      foldl_filter assoc absorb hcovered]
  termination_by xs.length
  decreasing_by exact Nat.lt_succ_of_le (List.length_filter_le _ _)

end firsts

variable {fill : α → α → α} {blank : α} {Extends : α → α → Prop}

/-- A monoid in which what was filled already fills nothing more is idempotent; what extends a
definition being what it is filled up to, all laws hold. -/
theorem of_absorb (blank_fill : ∀ x, fill blank x = x) (fill_blank : ∀ x, fill x blank = x)
    (assoc : ∀ x y z, fill (fill x y) z = fill x (fill y z))
    (absorb : ∀ x y, fill (fill x y) x = fill x y)
    (extends_iff : ∀ z x, fill x z = z ↔ Extends z x) : FillLaws fill blank Extends := by
  have self : ∀ x, fill x x = x := by
    intro x
    have hx := absorb x blank
    rwa [fill_blank] at hx
  refine ⟨blank_fill, fill_blank, assoc, self, absorb, fun x y => ?_, fun xs => ?_⟩
  · rw [← extends_iff, ← assoc, self]
  · classical exact foldl_eraseDups assoc absorb self blank xs

end FillLaws

/-- **Filling is an idempotent monoid**, of metadata, of slots, of types and of classes alike. A
definition keeps all that it sets, in all its fields, and of the definitions that it is filled from
only the first occurrence of each counts. -/
theorem fillLaws_definitions :
    FillLaws Metadata.fill {} Metadata.Extends ∧ FillLaws SlotDef.fill {} SlotDef.Extends ∧
    FillLaws TypeDef.fill {} TypeDef.Extends ∧ FillLaws ClassDef.fill {} ClassDef.Extends :=
  ⟨.of_absorb Metadata.empty_fill Metadata.fill_empty Metadata.fill_assoc Metadata.fill_absorb
      fun _ _ => Metadata.fill_eq_right_iff,
    .of_absorb SlotDef.empty_fill SlotDef.fill_empty SlotDef.fill_assoc SlotDef.fill_absorb
      fun _ _ => SlotDef.fill_eq_right_iff,
    .of_absorb TypeDef.empty_fill TypeDef.fill_empty TypeDef.fill_assoc TypeDef.fill_absorb
      fun _ _ => TypeDef.fill_eq_right_iff,
    .of_absorb ClassDef.empty_fill ClassDef.fill_empty ClassDef.fill_assoc ClassDef.fill_absorb
      fun _ _ => ClassDef.fill_eq_right_iff⟩

end SlotFrame
