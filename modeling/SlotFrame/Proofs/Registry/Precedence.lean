import SlotFrame.Proofs.Hierarchy.Closure
import SlotFrame.Proofs.Schema.Filling

/-! # Which definition decides about a slot

A slot that is seen from a class is filled from its own definition, then from what the classes above
say about it, then from the slots above its own definition. `Registry.SlotSources` lists these
definitions with the names under which they are found, none of which is unknown.

Main statements: `Registry.inducedSlot_nearest` (the nearest of the listed definitions decides about
every field) and `Registry.slot?_of_scopedAttribute` (what the classes in scope declare is found
without them). -/

namespace SlotFrame

/-! ### Names that are all known -/

theorem map_eq_map_some {α β : Type} {find? : α → Option β} {names : List α}
    (h : ∀ n ∈ names, ∃ d, find? n = some d) :
    names.map find? = (names.filterMap find?).map some := by
  induction names with
  | nil => rfl
  | cons n names ih =>
    obtain ⟨d, hd⟩ := h n List.mem_cons_self
    have hrest : ∀ n ∈ names, ∃ d, find? n = some d := fun n hn => h n (List.mem_cons_of_mem _ hn)
    rw [List.map_cons, List.filterMap_cons, hd, ih hrest, List.map_cons]

namespace Registry

variable (r : Registry)

theorem mem_documents_of_find? {α : Type} {select : Schema → Table α} {name : String} {a : α}
    (h : r.find? select name = some a) :
    ∃ d ∈ r.documents true, (select d).get? name = some a := by
  obtain ⟨d, hd, hg⟩ := List.exists_of_findSome?_eq_some h
  exact ⟨d, List.mem_reverse.1 hd, hg⟩

theorem class?_of_classParents {o : Traversal} {name : String} {names : List String}
    (h : r.classParents o name = .ok names) : ∃ c, r.class? name = some c := by
  unfold classParents at h
  split at h
  · rename_i c hc
    exact ⟨c, hc⟩
  · cases h

theorem slot?_of_slotParents {o : Traversal} {name : String} {names : List String}
    (h : r.slotParents o name = .ok names) : ∃ s, r.slot? name = some s := by
  unfold slotParents at h
  split at h
  · rename_i s hs
    exact ⟨s, hs⟩
  · cases h

/-- Every class in scope is known. -/
theorem class?_of_mem_scope {className : Option String} {classes : List String}
    (h : r.scope className = .ok classes) : ∀ c ∈ classes, ∃ d, r.class? c = some d := by
  intro c hc
  cases className with
  | none =>
    cases h
    cases hc
  | some name =>
    obtain ⟨parents, hp⟩ := (r.classesUp {}).above_of_mem_ancestors h c hc
    exact r.class?_of_classParents hp

/-- An attribute of some class is a slot. -/
theorem slot?_of_attribute {c name : String} {k : ClassDef} {a : SlotDef}
    (hc : r.class? c = some k) (ha : k.attributes.get? name = some a) :
    ∃ s, r.slot? name = some s := by
  obtain ⟨d, hd, hk⟩ := r.mem_documents_of_find? hc
  have hin : (attributeIn? name d).isSome := by
    unfold attributeIn?
    rw [List.findSome?_isSome_iff]
    exact ⟨k, Table.mem_values_of_get? hk, by rw [ha]; rfl⟩
  have hany : ((r.documents true).reverse.findSome? (attributeIn? name)).isSome := by
    rw [List.findSome?_isSome_iff]
    exact ⟨d, List.mem_reverse.2 hd, hin⟩
  rw [← Option.isSome_iff_exists]
  unfold slot?
  rw [Option.isSome_or, hany, Bool.or_true]

theorem slot?_of_scopedAttribute {classes : List String} {name : String} {a : SlotDef}
    (h : r.scopedAttribute? classes name = some a) : ∃ s, r.slot? name = some s := by
  obtain ⟨c, _, hc⟩ := List.exists_of_findSome?_eq_some h
  obtain ⟨k, hk, ha⟩ := Option.bind_eq_some_iff.1 hc
  exact r.slot?_of_attribute hk ha

theorem slot?_of_ownDefinition {name : String} {className : Option String} {classes : List String}
    {own : SlotDef} (h : r.ownDefinition name className classes = .ok own) :
    ∃ s, r.slot? name = some s := by
  unfold ownDefinition at h
  split at h
  · rename_i d hd
    cases hs : r.slot? name with
    | some s => exact ⟨s, rfl⟩
    | none =>
      rw [hs, Option.or_none] at hd
      cases ho : r.ownSlot? name with
      | some s =>
        unfold slot? at hs
        rw [ho] at hs
        cases hs
      | none =>
        rw [ho] at hd
        obtain ⟨s, hs'⟩ := r.slot?_of_scopedAttribute hd
        rw [hs] at hs'
        cases hs'
  · cases h

/-- Every slot above a slot's own definition is known. -/
theorem slot?_of_mem_slotAncestorsOf {o : Traversal} {name : String} {className : Option String}
    {classes above : List String} {own : SlotDef}
    (hown : r.ownDefinition name className classes = .ok own)
    (h : r.slotAncestorsOf o name own = .ok above) : ∀ n ∈ above, ∃ s, r.slot? n = some s := by
  intro n hn
  obtain ⟨parents, hp⟩ := (r.slotsUpFrom o name own).above_of_mem_ancestors h n hn
  by_cases he : n = name
  · subst he
    exact r.slot?_of_ownDefinition hown
  · have hp' : r.slotParents o n = .ok parents := by
      rw [← hp]
      exact (if_neg he).symm
    exact r.slot?_of_slotParents hp'

/-! ### The definitions that decide -/

/-- What a class says about a slot: by its attribute, then by its refinement. -/
def saidBy (name : String) (k : ClassDef) : List SlotDef :=
  (k.attributes.get? name).toList ++ (k.slotUsage.get? name).toList

/-- The definitions that decide about a slot as it is seen from a class, or from none. Each of the
names that are met stands for a definition. -/
structure SlotSources (name : String) (className : Option String) where
  /-- The classes above the class, itself included. -/
  classes : List String
  scope : r.scope className = .ok classes
  kinds : List ClassDef
  classes_known : classes.map r.class? = kinds.map some
  /-- The slot itself, or else the first attribute along the classes, or else any attribute. -/
  own : SlotDef
  own_found : ((r.ownSlot? name).or (kinds.findSome? fun k => k.attributes.get? name)).or
    (r.slot? name) = some own
  /-- The slots above the own definition. -/
  above : List String
  ancestors : r.slotAncestorsOf { reflexive := false } name own = .ok above
  parents : List SlotDef
  above_known : above.map r.slot? = parents.map some

/-- The definitions, the nearest first. -/
def SlotSources.list {r : Registry} {name : String} {className : Option String}
    (s : r.SlotSources name className) : List SlotDef :=
  s.own :: s.kinds.flatMap (saidBy name) ++ s.parents

theorem scopedAttribute?_eq {classes : List String} {kinds : List ClassDef}
    (h : classes.map r.class? = kinds.map some) (name : String) :
    r.scopedAttribute? classes name = kinds.findSome? fun k => k.attributes.get? name := by
  have hmap : r.scopedAttribute? classes name = (classes.map r.class?).findSome? fun k =>
      k.bind fun d => d.attributes.get? name := by
    rw [List.findSome?_map]
    rfl
  rw [hmap, h, List.findSome?_map]
  rfl

theorem refinements_eq {classes : List String} {kinds : List ClassDef}
    (h : classes.map r.class? = kinds.map some) (name : String) :
    r.refinements classes name = kinds.flatMap (saidBy name) := by
  have hmap : r.refinements classes name = (classes.map r.class?).flatMap fun k =>
      (k.map (saidBy name)).getD [] := by
    rw [List.flatMap_map]
    unfold refinements
    congr 1
    funext c
    cases r.class? c <;> rfl
  rw [hmap, h, List.flatMap_map]
  rfl

theorem ownDefinition_eq_ok {name : String} {className : Option String} {classes : List String}
    {own : SlotDef} (h : r.ownDefinition name className classes = .ok own) :
    ((r.ownSlot? name).or (r.scopedAttribute? classes name)).or (r.slot? name) = some own := by
  unfold ownDefinition at h
  split at h
  · rename_i d hd
    cases h
    exact hd
  · cases h

/-- A slot that is induced at all is filled from its definitions. -/
theorem exists_slotSources {name : String} {className : Option String} {d : SlotDef}
    (h : r.inducedSlot name className = .ok d) :
    ∃ s : r.SlotSources name className, SlotDef.fillFrom s.list = d := by
  obtain ⟨sources, hs, rfl⟩ := Result.map_eq_ok_iff.1 h
  unfold slotSources at hs
  obtain ⟨classes, hscope, hs⟩ := Result.bind_eq_ok_iff.1 hs
  obtain ⟨own, hown, hs⟩ := Result.bind_eq_ok_iff.1 hs
  obtain ⟨above, habove, hs⟩ := Result.bind_eq_ok_iff.1 hs
  have hclasses := map_eq_map_some (r.class?_of_mem_scope hscope)
  have hparents := map_eq_map_some (r.slot?_of_mem_slotAncestorsOf hown habove)
  let s : r.SlotSources name className :=
    { classes, scope := hscope, kinds := classes.filterMap r.class?, classes_known := hclasses
      own, own_found := by rw [← r.scopedAttribute?_eq hclasses, r.ownDefinition_eq_ok hown]
      above, ancestors := habove, parents := above.filterMap r.slot?, above_known := hparents }
  have hlist : sources = s.list := by
    cases hs
    rw [r.refinements_eq hclasses]
    rfl
  exact ⟨s, by rw [hlist]⟩

theorem SlotSources.ownDefinition_eq {name : String} {className : Option String}
    (s : r.SlotSources name className) :
    r.ownDefinition name className s.classes = .ok s.own := by
  unfold ownDefinition
  rw [r.scopedAttribute?_eq s.classes_known, s.own_found]

/-- The definitions of a slot are those that it is filled from. -/
theorem SlotSources.inducedSlot_eq {name : String} {className : Option String}
    (s : r.SlotSources name className) :
    r.inducedSlot name className = .ok (SlotDef.fillFrom s.list) := by
  have hparents : s.above.filterMap r.slot? = s.parents := by
    have hmap : s.above.filterMap r.slot? = (s.above.map r.slot?).filterMap id := by
      rw [List.filterMap_map]
      rfl
    rw [hmap, s.above_known, List.filterMap_map]
    exact List.filterMap_some
  have hsources : r.slotSources name className = .ok s.list := by
    unfold slotSources
    rw [s.scope]
    dsimp only [bind, Except.bind]
    rw [s.ownDefinition_eq]
    dsimp only [bind, Except.bind]
    rw [s.ancestors, r.refinements_eq s.classes_known]
    dsimp only [bind, Except.bind]
    rw [hparents]
    rfl
  unfold inducedSlot
  rw [hsources]
  rfl

/-- A slot that is induced at all takes every field from the nearest definition that sets it. -/
theorem inducedSlot_nearest {name : String} {className : Option String} {d : SlotDef}
    (h : r.inducedSlot name className = .ok d) :
    ∃ s : r.SlotSources name className, d.Nearest s.list := by
  obtain ⟨s, rfl⟩ := r.exists_slotSources h
  exact ⟨s, SlotDef.nearest_fillFrom s.list⟩

end Registry

end SlotFrame
