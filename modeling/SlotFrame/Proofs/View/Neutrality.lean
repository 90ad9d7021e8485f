import SlotFrame.Proofs.Registry.AttributeSearch
import SlotFrame.Proofs.View.Flattening

/-! # What folding the imports into a view leaves unseen

Folding changes which of two declarations of one name is found. Where no name of a kind is declared
by two documents there is nothing to choose, so every answer about classes, types, enums and subsets
stays what it was. Induced slots may change even so: where a name is no slot, the attributes of all
classes are searched, and folding turns that search round.

Main statements: `View.Reachable.mergeImports_indistinguishable`,
`View.Reachable.mergeImports_inducedSlot` (induced slots stay the same where this search does not
matter). -/

namespace SlotFrame.View

variable {W : Type}

/-- **Folding is not seen without collisions.** Once the imports are loaded, no name of a class, a
slot, a type, an enum or a subset being declared by two documents, a view answers after folding as
it did before: searches by name, tables of all elements in every order, classes above and below each
other and the faults on the way, the slots of classes, the ranges of slots and the types filled
along the types above them. -/
theorem Reachable.mergeImports_indistinguishable {v : View} (hv : v.Reachable)
    (hloaded : v.loaded = true) (h : v.registry.Unambiguous) (source : Source (StateM W))
    (cache : PrefixCache) (w : W) :
    ∃ v', (v.mergeImports source cache).run w = ((.ok (), v'), w) ∧
      v'.registry.Indistinguishable v.registry ∧
      ∀ name, (v'.ask (inducedType name)).1 = (v.ask (inducedType name)).1 := by
  refine ⟨_, mergeImports_of_loaded hloaded source cache w, h.flatten_indistinguishable, ?_⟩
  intro name
  have hv' := hv.coherent.replace v.registry.flatten
  rw [(answers_inducedType name).answer hv', (answers_inducedType name).answer hv.coherent]
  exact h.flatten_indistinguishable.inducedType name

/-- A document with a class of numbered ages, which imports one with a class of ages in words. -/
def ages : View := ofSchema
  { name := "p"
    imports := ["x.json"]
    classes := Table.ofList
      [("A", { attributes := Table.ofList [("age", { range := some "integer" })] })] }
  {}

/-- The imported document. -/
def agesSource : Source (StateM Unit) := .ofTable <| Table.ofList
  [("x.json", .text ("\x7b\"classes\": \x7b\"B\": \x7b\"attributes\": " ++
    "\x7b\"age\": \x7b\"range\": \"string\"\x7d\x7d\x7d\x7d\x7d"))]

/-- The view of both documents. -/
def agesLoaded : View := ((ages.loadImports agesSource ∅).run ()).1.2

theorem reachable_agesLoaded : agesLoaded.Reachable :=
  .loadImports agesSource ∅ () (.ofSchema _ _)

theorem loaded_agesLoaded : agesLoaded.loaded = true ∧ agesLoaded.registry.Unambiguous ∧
    agesLoaded.registry.keys = ["p", "x.json"] := by
  decide +kernel

/-- Two documents whose classes have an attribute of one name declare nothing twice. -/
theorem mergeImports_indistinguishable_ages :
    agesLoaded.Reachable ∧ agesLoaded.loaded = true ∧ agesLoaded.registry.Unambiguous ∧
      agesLoaded.registry.keys = ["p", "x.json"] ∧
      ∃ v', (agesLoaded.mergeImports agesSource ∅).run () = ((.ok (), v'), ()) ∧
        v'.registry.Indistinguishable agesLoaded.registry := by
  have hv := reachable_agesLoaded
  obtain ⟨hloaded, hunambiguous, hkeys⟩ := loaded_agesLoaded
  obtain ⟨v', hmerge, hsame, _⟩ :=
    hv.mergeImports_indistinguishable hloaded hunambiguous agesSource ∅ ()
  exact ⟨hv, hloaded, hunambiguous, hkeys, v', hmerge, hsame⟩

/-- Nothing is declared twice, and yet the age that is asked for without a class was in words and is
a number once the documents are folded. -/
theorem mergeImports_changes_age :
    agesLoaded.Reachable ∧ agesLoaded.loaded = true ∧ agesLoaded.registry.Unambiguous ∧
      ∃ v', (agesLoaded.mergeImports agesSource ∅).run () = ((.ok (), v'), ()) ∧
        (agesLoaded.ask (inducedSlot "age" none)).1.map SlotDef.range = .ok (some "string") ∧
        (v'.ask (inducedSlot "age" none)).1.map SlotDef.range = .ok (some "integer") ∧
        (v'.ask (inducedSlot "age" none)).1 ≠ (agesLoaded.ask (inducedSlot "age" none)).1 := by
  have hages : (agesLoaded.ask (inducedSlot "age" none)).1.map SlotDef.range =
        .ok (some "string") ∧
      ((agesLoaded.replace agesLoaded.registry.flatten).ask
        (inducedSlot "age" none)).1.map SlotDef.range = .ok (some "integer") := by decide +kernel
  obtain ⟨hbefore, hafter⟩ := hages
  obtain ⟨hloaded, hunambiguous, _⟩ := loaded_agesLoaded
  refine ⟨reachable_agesLoaded, hloaded, hunambiguous, _, mergeImports_of_loaded hloaded _ _ (),
    hbefore, hafter, ?_⟩
  intro hsame
  rw [hsame, hbefore] at hafter
  revert hafter
  decide

/-- **Folding keeps the induced slots whose searches do not depend on its order.** Once the imports
are loaded, no name of a class, a slot, a type, an enum or a subset being declared by two documents,
folding turns round the search for a name among the attributes of all classes. A slot seen from a
class or from none stays the same, or fails with the same fault, if every such search that its
induction makes finds the same from either end. -/
theorem Reachable.mergeImports_inducedSlot {v : View} (hv : v.Reachable) (hloaded : v.loaded = true)
    (h : v.registry.Unambiguous) (source : Source (StateM W)) (cache : PrefixCache) (w : W) :
    ∃ v', (v.mergeImports source cache).run w = ((.ok (), v'), w) ∧
      (∀ name, v'.registry.slot? name = v.registry.oldestSlot? name) ∧
      ∀ name className, v.registry.FoundAlike name className →
        (v'.ask (inducedSlot name className)).1 = (v.ask (inducedSlot name className)).1 := by
  refine ⟨_, mergeImports_of_loaded hloaded source cache w, Registry.slot?_flatten h, ?_⟩
  intro name className hfound
  have hv' := hv.coherent.replace v.registry.flatten
  rw [(answers_inducedSlot name className).answer hv',
    (answers_inducedSlot name className).answer hv.coherent]
  exact hfound.inducedSlot_flatten h

/-- Seen from its class each of the two ages stays what it is. -/
theorem mergeImports_inducedSlot_ages :
    agesLoaded.Reachable ∧ agesLoaded.loaded = true ∧ agesLoaded.registry.Unambiguous ∧
      agesLoaded.registry.FoundAlike "age" (some "B") ∧
      ∃ v', (agesLoaded.mergeImports agesSource ∅).run () = ((.ok (), v'), ()) ∧
        (v'.ask (inducedSlot "age" (some "B"))).1.map SlotDef.range = .ok (some "string") := by
  have hseen : agesLoaded.registry.scope (some "B") = .ok ["B"] ∧
      (agesLoaded.registry.ownSlot? "age").isNone = true ∧
      (agesLoaded.registry.scopedAttribute? ["B"] "age").map
        (Traversal.above { reflexive := false }) = some [] ∧
      (agesLoaded.ask (inducedSlot "age" (some "B"))).1.map SlotDef.range =
        .ok (some "string") := by decide +kernel
  obtain ⟨hscope, hslot, hroot, hbefore⟩ := hseen
  obtain ⟨a, ha, hnone⟩ := Option.map_eq_some_iff.1 hroot
  have hfound :=
    Registry.FoundAlike.of_attribute hscope (Option.isNone_iff_eq_none.1 hslot) ha hnone
  obtain ⟨hloaded, hunambiguous, _⟩ := loaded_agesLoaded
  obtain ⟨v', hmerge, _, hsame⟩ :=
    reachable_agesLoaded.mergeImports_inducedSlot hloaded hunambiguous agesSource ∅ ()
  refine ⟨reachable_agesLoaded, hloaded, hunambiguous, hfound, v', hmerge, ?_⟩
  rw [hsame _ _ hfound]
  exact hbefore

end SlotFrame.View
