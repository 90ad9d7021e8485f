import Mathlib.Data.List.Nodup
import SlotFrame.Proofs.Registry.Flattening
import SlotFrame.Registry.Induction

/-! # Documents that declare nothing twice

The newest document wins a search and the oldest one wins when documents are folded, so the two
differ only in names that two documents declare. Where no name of a kind is declared by two
documents, the folded table is the tables of the documents one behind the other, and so is the table
of all elements.

Main statements: `FirstDeclared.entries_eq` (a folded table is the concatenation),
`Registry.find?_flatten`, `Registry.aggregate_flatten` (searches and tables of all elements do not
change), `Registry.flatten_indistinguishable` (nor do the answers made of them). -/

namespace SlotFrame

variable {α β : Type}

/-! ### Searches from either end -/

theorem findSome?_reverse_of_pairwise {f : β → Option α} {xs : List β}
    (h : xs.Pairwise fun x y => f x = none ∨ f y = none) :
    xs.reverse.findSome? f = xs.findSome? f := by
  induction xs with
  | nil => rfl
  | cons x xs ih =>
    rw [List.pairwise_cons] at h
    rw [List.reverse_cons, List.findSome?_append, ih h.2, List.findSome?_cons]
    cases hx : f x with
    | none => simp [hx]
    | some a =>
      have hrest : xs.findSome? f = none := by
        rw [List.findSome?_eq_none_iff]
        intro y hy
        exact (h.1 y hy).resolve_left (by rw [hx]; simp)
      simp [hrest, hx]

theorem findSome?_flatMap {γ : Type} (f : β → List γ) (g : γ → Option α) (xs : List β) :
    (xs.flatMap f).findSome? g = xs.findSome? fun x => (f x).findSome? g := by
  induction xs with
  | nil => rfl
  | cons x xs ih =>
    rw [List.flatMap_cons, List.findSome?_append, ih, List.findSome?_cons]
    cases (f x).findSome? g <;> rfl

theorem keysOf_flatMap (f : β → List (String × α)) (xs : List β) :
    keysOf (xs.flatMap f) = xs.flatMap fun x => keysOf (f x) := by
  unfold keysOf
  rw [List.map_flatMap]

/-! ### Documents apart -/

/-- No two of some documents declare the same name in a table. -/
def Apart (select : Schema → Table α) (documents : List Schema) : Prop :=
  documents.Pairwise fun d e => ∀ n ∈ (select d).keys, n ∉ (select e).keys

instance (select : Schema → Table α) (documents : List Schema) :
    Decidable (Apart select documents) :=
  inferInstanceAs (Decidable (documents.Pairwise _))

section apart

variable {select : Schema → Table α} {documents : List Schema} (h : Apart select documents)

include h

theorem Apart.nodup_flatMap_keys : (documents.flatMap fun d => (select d).keys).Nodup := by
  rw [List.nodup_flatMap]
  refine ⟨fun d _ => Table.nodup_keys _, h.imp ?_⟩
  intro d e hde n hd he
  exact hde n hd he

theorem Apart.findSome?_reverse (name : String) :
    (documents.reverse.findSome? fun d => (select d).get? name) =
      documents.findSome? fun d => (select d).get? name := by
  apply findSome?_reverse_of_pairwise
  refine h.imp ?_
  intro d e hde
  by_cases hd : name ∈ (select d).keys
  · right
    have he := hde name hd
    rw [Table.mem_keys_iff] at he
    simpa using he
  · left
    rw [Table.mem_keys_iff] at hd
    simpa using hd

/-- Of documents apart a folded table is the concatenation of their tables. -/
theorem FirstDeclared.entries_eq {t : Table α} (ht : FirstDeclared t select documents) :
    t.entries = documents.flatMap fun d => (select d).entries := by
  apply eq_of_keysOf_eq t.nodup
  · rw [keysOf_flatMap]
    exact ht.keys.trans (eraseDups_of_nodup h.nodup_flatMap_keys)
  · intro key
    rw [lookupKey_flatMap]
    exact ht.get? key

theorem FirstDeclared.values_eq {t : Table α} (ht : FirstDeclared t select documents) :
    t.values = documents.flatMap fun d => (select d).values := by
  unfold Table.values
  rw [ht.entries_eq h, List.map_flatMap]

end apart

namespace Registry

variable (r : Registry)

theorem get?_aggregate (select : Schema → Table α) (name : String) :
    (r.aggregate true select).get? name = r.find? select name := by
  unfold aggregate
  rw [Table.get?_foldl_overwrite, Table.get?_empty, Option.or_none]
  rfl

/-- A registry in which no name of a kind is declared by two documents. Attributes belong to their
classes and may be of one name. -/
structure Unambiguous : Prop where
  classes : Apart Schema.classes (r.documents true)
  slots : Apart Schema.slots (r.documents true)
  types : Apart Schema.types (r.documents true)
  enums : Apart Schema.enums (r.documents true)
  subsets : Apart Schema.subsets (r.documents true)

instance : Decidable r.Unambiguous :=
  decidable_of_iff
    (Apart Schema.classes (r.documents true) ∧ Apart Schema.slots (r.documents true) ∧
      Apart Schema.types (r.documents true) ∧ Apart Schema.enums (r.documents true) ∧
      Apart Schema.subsets (r.documents true))
    ⟨fun ⟨hc, hs, ht, he, hb⟩ => ⟨hc, hs, ht, he, hb⟩,
      fun h => ⟨h.classes, h.slots, h.types, h.enums, h.subsets⟩⟩

section table

variable {r} {select : Schema → Table α}
  (hf : FirstDeclared (select r.flattened) select (r.documents true))
  (ha : Apart select (r.documents true))

include hf ha

theorem find?_flatten (name : String) : r.flatten.find? select name = r.find? select name := by
  have hone : r.flatten.find? select name = (select r.flattened).get? name := by
    show ([r.flattened].findSome? fun d => (select d).get? name) = _
    simp
  rw [hone, hf.get?]
  exact (ha.findSome?_reverse name).symm

theorem aggregate_flatten : r.flatten.aggregate true select = r.aggregate true select := by
  apply Table.ext_get?
  · exact r.keys_aggregate_flatten hf
  · intro name
    rw [get?_aggregate, get?_aggregate, find?_flatten hf ha]

theorem countIn_flatten : r.flatten.countIn select = r.countIn select := by
  have hkeys : (select r.flattened).keys = (r.documents true).flatMap fun d => (select d).keys :=
    hf.keys.trans (eraseDups_of_nodup ha.nodup_flatMap_keys)
  show ([r.flattened].flatMap fun d => (select d).keys).length = _
  rw [List.flatMap_singleton, hkeys]
  rfl

end table

/-! ### What does not change -/

section unambiguous

variable {r} (h : r.Unambiguous)

include h

theorem class?_flatten (name : String) : r.flatten.class? name = r.class? name :=
  find?_flatten r.flattened_folded.classes h.classes name

theorem ownSlot?_flatten (name : String) : r.flatten.ownSlot? name = r.ownSlot? name :=
  find?_flatten r.flattened_folded.slots h.slots name

theorem type?_flatten (name : String) : r.flatten.type? name = r.type? name :=
  find?_flatten r.flattened_folded.types h.types name

theorem enum?_flatten (name : String) : r.flatten.enum? name = r.enum? name :=
  find?_flatten r.flattened_folded.enums h.enums name

theorem subset?_flatten (name : String) : r.flatten.subset? name = r.subset? name :=
  find?_flatten r.flattened_folded.subsets h.subsets name

theorem classes_flatten : r.flatten.classes true = r.classes true :=
  aggregate_flatten r.flattened_folded.classes h.classes

theorem slots_flatten : r.flatten.slots true = r.slots true := by
  unfold slots
  rw [classes_flatten h, aggregate_flatten r.flattened_folded.slots h.slots]

theorem types_flatten : r.flatten.types true = r.types true :=
  aggregate_flatten r.flattened_folded.types h.types

theorem enums_flatten : r.flatten.enums true = r.enums true :=
  aggregate_flatten r.flattened_folded.enums h.enums

theorem subsets_flatten : r.flatten.subsets true = r.subsets true :=
  aggregate_flatten r.flattened_folded.subsets h.subsets

theorem classParents_flatten (o : Traversal) (name : String) :
    r.flatten.classParents o name = r.classParents o name := by
  unfold classParents
  rw [class?_flatten h]

theorem classesUp_flatten (o : Traversal) : r.flatten.classesUp o = r.classesUp o := by
  have habove : r.flatten.classParents o = r.classParents o :=
    funext fun n => classParents_flatten h o n
  unfold classesUp
  rw [habove, countIn_flatten r.flattened_folded.classes h.classes]

theorem classAncestors_flatten (o : Traversal) (name : String) :
    r.flatten.classAncestors o name = r.classAncestors o name := by
  unfold classAncestors
  rw [classesUp_flatten h]

theorem classChildren_flatten {o : Traversal} (ho : o.imports = true) (name : String) :
    r.flatten.classChildren o name = r.classChildren o name := by
  unfold classChildren
  rw [class?_flatten h, ho, classes_flatten h]

theorem classDescendants_flatten {o : Traversal} (ho : o.imports = true) (name : String) :
    r.flatten.classDescendants o name = r.classDescendants o name := by
  have habove : r.flatten.classChildren o = r.classChildren o :=
    funext fun n => classChildren_flatten h ho n
  unfold classDescendants classesDown
  rw [habove, countIn_flatten r.flattened_folded.classes h.classes]

theorem typeAncestors_flatten (o : Traversal) (name : String) :
    r.flatten.typeAncestors o name = r.typeAncestors o name := by
  have habove : r.flatten.typeParents o = r.typeParents o := by
    funext n
    unfold typeParents
    rw [type?_flatten h]
  unfold typeAncestors typesUp
  rw [habove, countIn_flatten r.flattened_folded.types h.types]

theorem classSlots_flatten (className : String) :
    r.flatten.classSlots className = r.classSlots className := by
  have hknown : r.flatten.class? = r.class? := funext (class?_flatten h)
  unfold classSlots
  rw [classAncestors_flatten h, hknown]

theorem inducedType_flatten (name : String) :
    r.flatten.inducedType name = r.inducedType name := by
  have hknown : r.flatten.type? = r.type? := funext (type?_flatten h)
  unfold inducedType
  rw [typeAncestors_flatten h, hknown]

theorem slotRange_flatten (s : SlotDef) : r.flatten.slotRange s = r.slotRange s := by
  have hothers := congrArg Schema.defaultRange r.flattened_folded.others
  have hdefault : r.flatten.primary.defaultRange = r.primary.defaultRange := hothers
  have hinstance : ∀ n, r.flatten.instance? n = r.instance? n := by
    intro n
    unfold instance?
    rw [class?_flatten h, enum?_flatten h, type?_flatten h]
  unfold slotRange
  rw [hdefault]
  cases s.range.or r.primary.defaultRange with
  | none => rfl
  | some range =>
    dsimp only
    rw [hinstance]

end unambiguous

/-! ### Registries that answer alike -/

/-- Registries that no question about classes, types, enums and subsets tells apart, nor one about
the table of all slots, the slots of a class or the range of a slot. -/
structure Indistinguishable (r s : Registry) : Prop where
  class? : ∀ name, r.class? name = s.class? name
  type? : ∀ name, r.type? name = s.type? name
  enum? : ∀ name, r.enum? name = s.enum? name
  subset? : ∀ name, r.subset? name = s.subset? name
  classes : ∀ o, (r.classes true).arrange o = (s.classes true).arrange o
  slots : ∀ o, (r.slots true).arrange o = (s.slots true).arrange o
  types : ∀ o, (r.types true).arrange o = (s.types true).arrange o
  enums : ∀ o, (r.enums true).arrange o = (s.enums true).arrange o
  subsets : ∀ o, (r.subsets true).arrange o = (s.subsets true).arrange o
  classAncestors : ∀ (o : Traversal) name, o.imports = true →
    r.classAncestors o name = s.classAncestors o name
  classChildren : ∀ (o : Traversal) name, o.imports = true →
    r.classChildren o name = s.classChildren o name
  classDescendants : ∀ (o : Traversal) name, o.imports = true →
    r.classDescendants o name = s.classDescendants o name
  classRoots : ∀ o : Traversal, o.imports = true → r.classRoots o = s.classRoots o
  classLeaves : ∀ o : Traversal, o.imports = true → r.classLeaves o = s.classLeaves o
  classSlots : ∀ name, r.classSlots name = s.classSlots name
  inducedType : ∀ name, r.inducedType name = s.inducedType name
  slotRange : ∀ d, r.slotRange d = s.slotRange d

/-- Folding documents that declare nothing twice is not seen from outside. -/
theorem Unambiguous.flatten_indistinguishable {r : Registry} (h : r.Unambiguous) :
    r.flatten.Indistinguishable r where
  class? := class?_flatten h
  type? := type?_flatten h
  enum? := enum?_flatten h
  subset? := subset?_flatten h
  classes o := by rw [classes_flatten h]
  slots o := by rw [slots_flatten h]
  types o := by rw [types_flatten h]
  enums o := by rw [enums_flatten h]
  subsets o := by rw [subsets_flatten h]
  classAncestors o name _ := classAncestors_flatten h o name
  classChildren o name ho := classChildren_flatten h ho name
  classDescendants o name ho := classDescendants_flatten h ho name
  classRoots o ho := by
    unfold Registry.classRoots
    rw [ho, classes_flatten h]
  classLeaves o ho := by
    unfold Registry.classLeaves
    rw [ho, classes_flatten h]
  classSlots := classSlots_flatten h
  inducedType := inducedType_flatten h
  slotRange := slotRange_flatten h

end Registry

end SlotFrame
