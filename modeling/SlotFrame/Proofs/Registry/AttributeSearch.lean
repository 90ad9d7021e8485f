import SlotFrame.Proofs.Hierarchy.Acyclicity
import SlotFrame.Proofs.Registry.Precedence
import SlotFrame.Proofs.Registry.Unambiguous

/-! # Slots that are found among the attributes of all classes

A name that is no slot is sought among the attributes of all classes, the newest document first.
Documents that are folded stand in one document in the order of the registry, so there the oldest
document comes first. Attributes of one name may stand in several documents even if nothing is
declared twice, and then the two searches differ. Nothing else that a slot is made of depends on the
order of the documents.

Main definitions: `Registry.oldestSlot?`, `Registry.FoundAlike`.

Main statements: `Registry.slot?_flatten` (what a name stands for once documents are folded) and
`Registry.FoundAlike.inducedSlot_flatten` (a slot whose searches do not differ stays the same). -/

namespace SlotFrame.Registry

/-- A slot, or else an attribute of any class, the oldest document first. -/
def oldestSlot? (r : Registry) (name : String) : Option SlotDef :=
  (r.ownSlot? name).or ((r.documents true).findSome? (attributeIn? name))

/-- Every search that induction makes among the attributes of all classes finds the same from either
end: that for the slot itself, which is made only if neither a slot nor a class in scope declares
it, and those for the slots that its own definition leads to. -/
structure FoundAlike (r : Registry) (name : String) (className : Option String) : Prop where
  itself : ∀ classes, r.scope className = .ok classes → r.scopedAttribute? classes name = none →
    r.oldestSlot? name = r.slot? name
  above : ∀ classes own, r.scope className = .ok classes →
    r.ownDefinition name className classes = .ok own →
    ∀ n, (r.slotsUpFrom { reflexive := false } name own).above.Ascends name n → n ≠ name →
      r.oldestSlot? n = r.slot? n

/-- An attribute that inherits from no slot is found alike by the classes that see it. -/
theorem FoundAlike.of_attribute {r : Registry} {name : String} {className : Option String}
    {classes : List String} {a : SlotDef} (hscope : r.scope className = .ok classes)
    (hslot : r.ownSlot? name = none) (ha : r.scopedAttribute? classes name = some a)
    (hroot : Traversal.above { reflexive := false } a = []) : r.FoundAlike name className where
  itself classes' hclasses hnone := by
    rw [hscope] at hclasses
    cases hclasses
    rw [ha] at hnone
    cases hnone
  above classes' own hclasses hown n hn := by
    rw [hscope] at hclasses
    cases hclasses
    have hsame := r.ownDefinition_eq_ok hown
    rw [hslot, ha, Option.none_or, Option.some_or] at hsame
    cases hsame
    obtain ⟨p, ⟨names, hnames, hp⟩, _⟩ := Relation.TransGen.head'_iff.1 hn
    have hempty := (if_pos rfl).symm.trans hnames
    rw [hroot] at hempty
    cases hempty
    cases hp

section unambiguous

variable {r : Registry} (h : r.Unambiguous)

include h

/-- The classes of folded documents stand one document behind the other. -/
theorem values_classes_flattened :
    r.flattened.classes.values = (r.documents true).flatMap fun d => d.classes.values :=
  r.flattened_folded.classes.values_eq h.classes

theorem slot?_flatten (name : String) : r.flatten.slot? name = r.oldestSlot? name := by
  have hone : (r.flatten.documents true).reverse.findSome? (attributeIn? name) =
      attributeIn? name r.flattened := by
    show ([r.flattened].findSome? _) = _
    simp
  have hall : attributeIn? name r.flattened =
      (r.documents true).findSome? (attributeIn? name) := by
    unfold attributeIn?
    rw [values_classes_flattened h, findSome?_flatMap]
  unfold slot? oldestSlot?
  rw [ownSlot?_flatten h, hone, hall]

theorem slotBound_flatten : r.flatten.slotBound = r.slotBound := by
  have hnames : attributeNames r.flattened = (r.documents true).flatMap attributeNames := by
    unfold attributeNames
    rw [values_classes_flattened h, List.flatMap_assoc]
  have hcount : r.flatten.countAttributes = r.countAttributes := by
    show ([r.flattened].flatMap attributeNames).length = _
    rw [List.flatMap_singleton, hnames]
    rfl
  unfold slotBound
  rw [countIn_flatten r.flattened_folded.slots h.slots, hcount]

theorem scope_flatten (className : Option String) :
    r.flatten.scope className = r.scope className := by
  cases className with
  | none => rfl
  | some c => exact classAncestors_flatten h {} c

theorem scopedAttribute?_flatten (classes : List String) (name : String) :
    r.flatten.scopedAttribute? classes name = r.scopedAttribute? classes name := by
  unfold scopedAttribute?
  rw [show r.flatten.class? = r.class? from funext (class?_flatten h)]

theorem refinements_flatten (classes : List String) (name : String) :
    r.flatten.refinements classes name = r.refinements classes name := by
  unfold refinements
  rw [show r.flatten.class? = r.class? from funext (class?_flatten h)]

/-- The slots above a definition stay the same if those that it leads to are found alike. -/
theorem slotAncestorsOf_flatten {o : Traversal} {name : String} {own : SlotDef}
    (hsame : ∀ n, (r.slotsUpFrom o name own).above.Ascends name n → n ≠ name →
      r.oldestSlot? n = r.slot? n) :
    r.flatten.slotAncestorsOf o name own = r.slotAncestorsOf o name own := by
  symm
  unfold slotAncestorsOf
  refine Hierarchy.ancestors_congr rfl (slotBound_flatten h).symm ?_
  intro n hn
  by_cases he : n = name
  · subst he
    exact (if_pos rfl).trans (if_pos rfl).symm
  · have hasc := (Above.reaches_iff.1 hn).resolve_left he
    refine (if_neg he).trans (Eq.trans ?_ (if_neg he).symm)
    unfold slotParents
    rw [slot?_flatten h, hsame n hasc he]

theorem FoundAlike.ownDefinition_flatten {name : String} {className : Option String}
    (hf : r.FoundAlike name className) {classes : List String}
    (hscope : r.scope className = .ok classes) :
    r.flatten.ownDefinition name className classes = r.ownDefinition name className classes := by
  unfold ownDefinition
  rw [ownSlot?_flatten h, scopedAttribute?_flatten h, slot?_flatten h]
  cases hs : r.scopedAttribute? classes name with
  | none => rw [hf.itself classes hscope hs]
  | some a => rw [Option.or_assoc, Option.or_assoc, Option.some_or, Option.some_or]

/-- **A slot that is found alike from either end is not changed by folding.** -/
theorem FoundAlike.inducedSlot_flatten {name : String} {className : Option String}
    (hf : r.FoundAlike name className) :
    r.flatten.inducedSlot name className = r.inducedSlot name className := by
  have hsources : r.flatten.slotSources name className = r.slotSources name className := by
    unfold slotSources
    rw [scope_flatten h]
    refine Result.bind_congr_of_ok fun classes hscope => ?_
    rw [hf.ownDefinition_flatten h hscope]
    refine Result.bind_congr_of_ok fun own hown => ?_
    have hsame := hf.above classes own hscope hown
    rw [slotAncestorsOf_flatten h hsame, refinements_flatten h]
    refine Result.bind_congr_of_ok fun above habove => ?_
    have hslots : above.filterMap r.flatten.slot? = above.filterMap r.slot? := by
      apply List.filterMap_congr
      intro n hn
      have hasc := ((Hierarchy.mem_ancestors_iff habove).1 hn).resolve_right (by simp)
      rw [slot?_flatten h]
      exact hsame n hasc (Hierarchy.ne_of_mem_ancestors habove hn)
    rw [hslots]
  unfold inducedSlot
  rw [hsources]

end unambiguous

end SlotFrame.Registry
