import SlotFrame.Proofs.Registry.AttributeSearch
import SlotFrame.Proofs.Registry.ClassSlots
import SlotFrame.Proofs.Registry.Orders
import SlotFrame.Proofs.View.Reachable

/-! # The table of all slots

A name that is a slot of some document is the same in a search and in the table of all slots. For
any other name both fall back to attributes of classes, in two ways: a search goes through the
classes of the documents themselves, the newest document first, while the table takes the classes in
the order in which they were first declared, each as it was last declared. So an attribute of a
class that a newer document declares anew is found and yet not in the table, and of attributes of
one name in several documents the two may take different ones. Nothing else tells them apart.

Main statements: `Registry.get?_slots`, `Registry.mem_slots_iff`, `Registry.get?_slots_of_apart`
(the table searches the oldest document first) and `Registry.slots_agree`. -/

namespace SlotFrame

variable {α : Type}

/-! ### Order does not matter to a search -/

theorem Table.get?_arrange [Element α] (t : Table α) (o : ElementOrder) (key : String) :
    (t.arrange o).get? key = t.get? key := by
  apply Option.ext
  intro value
  have hmem : ∀ u : Table α, u.get? key = some value ↔ (key, value) ∈ u.entries := fun u =>
    ⟨mem_of_lookupKey, lookupKey_of_mem u.nodup⟩
  rw [hmem, hmem, (t.perm_arrange o).mem_iff]

namespace Registry

variable (r : Registry) (name : String)

/-! ### What the table holds -/

/-- The table of all slots holds the newest slot of a name, or else the attribute of the first class
that has one, each class being as it was last declared. -/
theorem get?_slots : (r.slots true).get? name =
    (r.ownSlot? name).or ((r.classes true).values.findSome? fun c => c.attributes.get? name) := by
  unfold slots
  rw [Table.get?_foldl_addMissing, get?_aggregate]
  rfl

theorem mem_values_classes_iff (c : ClassDef) :
    c ∈ (r.classes true).values ↔ ∃ className, r.class? className = some c := by
  rw [Table.mem_values_iff]
  unfold classes
  simp only [get?_aggregate]
  rfl

/-- The names of the table are those of slots and of the attributes of classes as they are found. -/
theorem mem_slots_iff : name ∈ (r.slots true).keys ↔ (r.ownSlot? name).isSome = true ∨
    ∃ className c, r.class? className = some c ∧ name ∈ c.attributes.keys := by
  rw [Table.mem_keys_iff, get?_slots, Option.isSome_or, Bool.or_eq_true, List.findSome?_isSome_iff]
  constructor
  · rintro (h | ⟨c, hc, h⟩)
    · exact .inl h
    · obtain ⟨className, hclass⟩ := (r.mem_values_classes_iff c).1 hc
      exact .inr ⟨className, c, hclass, (Table.mem_keys_iff _ _).2 h⟩
  · rintro (h | ⟨className, c, hclass, h⟩)
    · exact .inl h
    · have hc := (r.mem_values_classes_iff c).2 ⟨className, hclass⟩
      exact .inr ⟨c, hc, (Table.mem_keys_iff _ _).1 h⟩

/-- A search finds the names of slots and of the attributes of all classes of all documents. -/
theorem isSome_slot?_iff : (r.slot? name).isSome = true ↔ (r.ownSlot? name).isSome = true ∨
    ∃ d ∈ r.documents true, (attributeIn? name d).isSome = true := by
  unfold slot?
  simp only [Option.isSome_or, Bool.or_eq_true, List.findSome?_isSome_iff, List.mem_reverse]

theorem isSome_slot?_of_mem_slots (h : name ∈ (r.slots true).keys) :
    (r.slot? name).isSome = true := by
  rcases (r.mem_slots_iff name).1 h with hown | ⟨className, c, hclass, hname⟩
  · exact (r.isSome_slot?_iff name).2 (.inl hown)
  · obtain ⟨a, ha⟩ := Option.isSome_iff_exists.1 ((Table.mem_keys_iff _ _).1 hname)
    exact Option.isSome_iff_exists.2 (r.slot?_of_attribute hclass ha)

/-! ### Where no class is declared twice -/

section apart

variable {r} (h : Apart Schema.classes (r.documents true))

include h

theorem firstDeclared_classes :
    FirstDeclared (r.classes true) Schema.classes (r.documents true) where
  keys := r.keys_aggregate Schema.classes
  get? n := by
    unfold classes
    rw [get?_aggregate]
    exact h.findSome?_reverse n

/-- With no class declared twice the table searches the attributes of the documents as they are, the
oldest document first. -/
theorem get?_slots_of_apart : (r.slots true).get? name = r.oldestSlot? name := by
  rw [get?_slots, (firstDeclared_classes h).values_eq h, findSome?_flatMap]
  rfl

end apart

theorem isSome_oldestSlot? : (r.oldestSlot? name).isSome = (r.slot? name).isSome := by
  rw [Bool.eq_iff_iff]
  unfold oldestSlot? slot?
  simp only [Option.isSome_or, Bool.or_eq_true, List.findSome?_isSome_iff, List.mem_reverse]

theorem oldestSlot?_of_pairwise {r : Registry} {name : String}
    (h : (r.documents true).Pairwise fun d e =>
      attributeIn? name d = none ∨ attributeIn? name e = none) :
    r.oldestSlot? name = r.slot? name := by
  unfold oldestSlot? slot?
  rw [findSome?_reverse_of_pairwise h]

/-! ### Where they agree -/

/-- **The table of all slots and the search for a name differ only in attributes.** A slot of some
document is the same in both. The search finds whatever the table holds; a name that it finds and
the table does not hold is an attribute of classes of some documents, but of no class as it is
found, since newer documents declare them anew. With no class declared twice the table holds all
that is found, and it holds the same exactly if the attributes of the documents that are searched
give the same from either end, as they do if no two documents have an attribute of the name. -/
theorem slots_agree (o : ElementOrder) :
    ((r.ownSlot? name).isSome = true →
      ((r.slots true).arrange o).get? name = r.slot? name) ∧
    (name ∈ ((r.slots true).arrange o).keys → (r.slot? name).isSome = true) ∧
    ((r.slot? name).isSome = true ∧ name ∉ ((r.slots true).arrange o).keys ↔
      r.ownSlot? name = none ∧
      (∃ d ∈ r.documents true, (attributeIn? name d).isSome = true) ∧
      ∀ className c, r.class? className = some c → name ∉ c.attributes.keys) ∧
    (Apart Schema.classes (r.documents true) →
      (name ∈ ((r.slots true).arrange o).keys ↔ (r.slot? name).isSome = true) ∧
      (((r.slots true).arrange o).get? name = r.slot? name ↔
        r.oldestSlot? name = r.slot? name) ∧
      ((r.documents true).Pairwise (fun d e =>
          attributeIn? name d = none ∨ attributeIn? name e = none) →
        ((r.slots true).arrange o).get? name = r.slot? name)) := by
  have hget := Table.get?_arrange (r.slots true) o name
  have hkeys : name ∈ ((r.slots true).arrange o).keys ↔ name ∈ (r.slots true).keys := by
    rw [Table.mem_keys_iff, Table.mem_keys_iff, hget]
  rw [hget, hkeys]
  refine ⟨?_, r.isSome_slot?_of_mem_slots name, ?_, ?_⟩
  · intro hown
    obtain ⟨s, hs⟩ := Option.isSome_iff_exists.1 hown
    unfold slot?
    rw [get?_slots, hs, Option.some_or, Option.some_or]
  · rw [isSome_slot?_iff, mem_slots_iff, not_or, Option.not_isSome_iff_eq_none]
    constructor
    · rintro ⟨hfound, hown, hunseen⟩
      have hattribute := hfound.resolve_left (by rw [hown]; exact Bool.false_ne_true)
      exact ⟨hown, hattribute, fun className c hc hn => hunseen ⟨className, c, hc, hn⟩⟩
    · rintro ⟨hown, hattribute, hunseen⟩
      exact ⟨.inr hattribute, hown, fun ⟨className, c, hc, hn⟩ => hunseen className c hc hn⟩
  · intro hclasses
    have holdest := get?_slots_of_apart name hclasses
    refine ⟨?_, by rw [holdest], ?_⟩
    · rw [Table.mem_keys_iff, holdest, isSome_oldestSlot?]
    · intro hattributes
      rw [holdest, oldestSlot?_of_pairwise hattributes]

/-- A class with attributes of some names and ranges. -/
def attributed (attributes : List (String × String)) : ClassDef where
  attributes := Table.ofList <| attributes.map fun a => (a.1, { range := some a.2 })

/-- The view of a document with labels and houses and of an imported one with gardens. -/
def housing : View :=
  (((View.ofSchema
    { name := "p"
      imports := ["x.json"]
      slots := Table.ofList [("label", { range := some "string" })]
      classes := Table.ofList [("House", attributed [("size", "integer"), ("label", "integer")])] }
    {}).loadImports (m := StateM Unit) (.ofTable <| Table.ofList
      [("x.json", .text ("\x7b\"classes\": \x7b\"Garden\": \x7b\"attributes\": " ++
        "\x7b\"shade\": \x7b\"range\": \"string\"\x7d\x7d\x7d\x7d\x7d"))]) ∅).run ()).1.2

/-- A slot, an attribute of the primary document and one of the imported document are the same in
the search and in the table. -/
theorem slots_agree_housing :
    housing.Reachable ∧ housing.registry.keys = ["p", "x.json"] ∧
      (housing.registry.slots true).keys = ["label", "size", "shade"] ∧
      ∀ name ∈ ["label", "size", "shade"],
        ((housing.registry.slots true).arrange .byName).get? name =
          housing.registry.slot? name := by
  have hall : housing.registry.keys = ["p", "x.json"] ∧
      (housing.registry.slots true).keys = ["label", "size", "shade"] ∧
      (housing.registry.ownSlot? "label").isSome = true ∧
      Apart Schema.classes (housing.registry.documents true) ∧
      ∀ name ∈ ["size", "shade"], (housing.registry.documents true).Pairwise fun d e =>
        attributeIn? name d = none ∨ attributeIn? name e = none := by decide +kernel
  obtain ⟨hkeys, hslots, hown, hclasses, hattributes⟩ := hall
  refine ⟨.loadImports _ ∅ () (.ofSchema _ _), hkeys, hslots, ?_⟩
  intro name hname
  obtain ⟨howned, _, _, hagree⟩ := housing.registry.slots_agree name .byName
  rcases List.mem_cons.1 hname with rfl | hname
  · exact howned hown
  · exact (hagree hclasses).2.2 (hattributes name hname)

/-- The view of a document with heights and ages and of an imported one that declares the class of
the heights anew, without them, and has ages of its own. -/
def redeclared : View :=
  (((View.ofSchema
    { name := "p"
      imports := ["x.json"]
      classes := Table.ofList
        [("A", attributed [("height", "integer")]), ("C", attributed [("age", "integer")])] }
    {}).loadImports (m := StateM Unit) (.ofTable <| Table.ofList
      [("x.json", .text ("\x7b\"classes\": \x7b\"A\": null, \"B\": \x7b\"attributes\": " ++
        "\x7b\"age\": \x7b\"range\": \"string\"\x7d\x7d\x7d\x7d\x7d"))]) ∅).run ()).1.2

/-- The heights are found but not in the table, and of the ages the table holds the older ones and
the search finds the newer ones. -/
theorem slots_disagree :
    redeclared.Reachable ∧ redeclared.loaded = true ∧
      (redeclared.registry.slot? "height").isSome = true ∧
      "height" ∉ (redeclared.registry.slots true).keys ∧
      (redeclared.registry.slot? "age").bind SlotDef.range = some "string" ∧
      ((redeclared.registry.slots true).get? "age").bind SlotDef.range = some "integer" ∧
      (redeclared.registry.slots true).get? "age" ≠ redeclared.registry.slot? "age" := by
  have hall : redeclared.loaded = true ∧ (redeclared.registry.slot? "height").isSome = true ∧
      "height" ∉ (redeclared.registry.slots true).keys ∧
      (redeclared.registry.slot? "age").bind SlotDef.range = some "string" ∧
      ((redeclared.registry.slots true).get? "age").bind SlotDef.range = some "integer" := by
    decide +kernel
  obtain ⟨hloaded, hfound, hmissing, hnewer, holder⟩ := hall
  refine ⟨.loadImports _ ∅ () (.ofSchema _ _), hloaded, hfound, hmissing, hnewer, holder, ?_⟩
  intro hsame
  rw [hsame, hnewer] at holder
  revert holder
  decide

end Registry

end SlotFrame
