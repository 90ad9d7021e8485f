import SlotFrame.Proofs.Registry.ClassSlots
import SlotFrame.Walk.Basic

/-! # What may go wrong in a lookup

A search through a hierarchy that has room for all known names fails only where it must: above some
name nothing can be told, or a way leads back. In a registry nothing can be told about a name
without a definition, so a slot cannot be induced, nor its range be found, only because a name has
no definition or is above itself.

Main definitions: `Fault.OfLookup`.

Main statements: `Hierarchy.fault_of_ancestors`, `Registry.fault_of_inducedSlot` and
`Registry.fault_of_slotPlace`. -/

namespace SlotFrame

/-- The faults of a lookup: a name without a definition, and a name that is above itself. -/
inductive Fault.OfLookup : Fault → Prop where
  | unresolved (kind : ElementKind) (name : String) (context : Option String) :
      OfLookup (.unresolved kind name context)
  | cyclic (kind : ElementKind) (path : List String) : OfLookup (.cyclic kind path)

/-! ### Hierarchies -/

/-- The names above a name cannot be told only where nothing can be told about one of them or a way
leads back. -/
theorem Hierarchy.fault_of_ancestors {h : Hierarchy} (hs : h.Sized) {start : String}
    {reflexive : Bool} {f : Fault} (hf : h.ancestors start reflexive = .error f) :
    Explains h.kind h.above start f := by
  rcases Result.bind_eq_error_iff.1 hf with hacyclic | ⟨_, _, hclosure⟩
  · obtain ⟨r, hr, hfault⟩ := hs.settles_acyclic start
    unfold acyclic settle at hacyclic
    rw [hr] at hacyclic
    exact hfault f hacyclic
  · obtain ⟨r, hr⟩ := hs.exists_closure start reflexive
    unfold closure settle at hclosure
    rw [hr] at hclosure
    cases hclosure
    exact .inl (error_of_closureFrom (.new h.above start reflexive) hr)

/-- Where nothing can be told only about names without a definition, a hierarchy has the faults of a
lookup. -/
theorem Hierarchy.ofLookup_of_ancestors {h : Hierarchy} (hs : h.Sized)
    (habove : ∀ n f, h.above n = .error f → f.OfLookup) {start : String} {reflexive : Bool}
    {f : Fault} (hf : h.ancestors start reflexive = .error f) : f.OfLookup := by
  rcases fault_of_ancestors hs hf with ⟨n, -, hn⟩ | ⟨path, rfl, -⟩
  · exact habove n f hn
  · exact .cyclic h.kind path

/-! ### Registries -/

namespace Registry

variable {r : Registry} {f : Fault}

theorem fault_of_classAncestors {o : Traversal} {name : String}
    (h : r.classAncestors o name = .error f) : f.OfLookup := by
  refine Hierarchy.ofLookup_of_ancestors (r.sized_classesUp o) (fun n f hn => ?_) h
  have hn : r.classParents o n = .error f := hn
  unfold classParents at hn
  split at hn
  · cases hn
  · cases hn
    exact .unresolved _ n none

theorem fault_of_slotAncestorsOf {o : Traversal} {name : String} {own : SlotDef}
    (h : r.slotAncestorsOf o name own = .error f) : f.OfLookup := by
  refine Hierarchy.ofLookup_of_ancestors (r.sized_slotsUpFrom o name own) (fun n f hn => ?_) h
  by_cases he : n = name
  · have hown := (if_pos he).symm.trans hn
    cases hown
  · have hparents : r.slotParents o n = .error f := (if_neg he).symm.trans hn
    unfold slotParents at hparents
    split at hparents
    · cases hparents
    · cases hparents
      exact .unresolved _ n none

theorem fault_of_ownDefinition {name : String} {className : Option String} {classes : List String}
    (h : r.ownDefinition name className classes = .error f) : f.OfLookup := by
  unfold ownDefinition at h
  split at h
  · cases h
  · cases h
    exact .unresolved _ name className

/-- A slot cannot be induced for want of a scope, of an own definition, or of the slots above that,
whichever is missed first. -/
theorem inducedSlot_eq_error_iff {name : String} {className : Option String} :
    r.inducedSlot name className = .error f ↔ r.scope className = .error f ∨
      ∃ classes, r.scope className = .ok classes ∧
        (r.ownDefinition name className classes = .error f ∨
          ∃ own, r.ownDefinition name className classes = .ok own ∧
            r.slotAncestorsOf { reflexive := false } name own = .error f) := by
  unfold inducedSlot slotSources
  rw [Result.map_eq_error_iff, Result.bind_eq_error_iff]
  refine or_congr_right (exists_congr fun classes => and_congr_right fun _ => ?_)
  rw [Result.bind_eq_error_iff]
  refine or_congr_right (exists_congr fun own => and_congr_right fun _ => ?_)
  rw [Result.bind_eq_error_iff]
  -- once the slots above are known nothing is left to fail
  exact or_iff_left fun ⟨_, _, hok⟩ => nomatch hok

/-- A slot cannot be induced only because a name has no definition or is above itself. -/
theorem fault_of_inducedSlot {name : String} {className : Option String}
    (h : r.inducedSlot name className = .error f) : f.OfLookup := by
  rcases inducedSlot_eq_error_iff.1 h with hscope | ⟨classes, _, hown | ⟨own, _, habove⟩⟩
  · cases className with
    | none => cases hscope
    | some c => exact fault_of_classAncestors hscope
  · exact fault_of_ownDefinition hown
  · exact fault_of_slotAncestorsOf habove

theorem fault_of_slotRange {s : SlotDef} (h : r.slotRange s = .error f) : f.OfLookup := by
  unfold slotRange at h
  split at h
  · cases h
  · split at h
    · cases h
    · cases h
      exact .unresolved _ _ _

/-- The place of a key cannot be told only because a name has no definition or is above itself. -/
theorem fault_of_slotPlace {p : Place} {key : String} (h : r.slotPlace p key = .error f) :
    f.OfLookup := by
  rcases Result.bind_eq_error_iff.1 h with hslot | ⟨slot, _, h⟩
  · exact fault_of_inducedSlot hslot
  rcases Result.bind_eq_error_iff.1 h with hrange | ⟨range, _, h⟩
  · exact fault_of_slotRange hrange
  · cases h

end Registry

end SlotFrame
