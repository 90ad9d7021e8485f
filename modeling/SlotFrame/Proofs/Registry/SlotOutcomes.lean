import SlotFrame.Proofs.Hierarchy.Exploration
import SlotFrame.Proofs.Registry.Faults
import SlotFrame.Proofs.Registry.SlotTable

/-! # When a slot can be induced

Induction asks three things in turn: which classes are in scope, what the own definition of the slot
is, and which slots are above that. The first and the last are closures, which can be told exactly
if the name that they start from is founded: all that it leads to is defined, and none of it leads
back to itself. The own definition is sought last among the attributes of all classes, and what the
classes in scope declare is found there too, so the scope does not decide whether there is one.

Main definitions: `Founded`, `Registry.ScopeFounded`, `Registry.Declares`,
`Registry.OwnDefinition`.

Main statements: `Registry.exists_inducedSlot_iff` (when a slot can be induced) and
`Registry.inducedSlot_of_not_scopeFounded`, `Registry.inducedSlot_of_not_declares`,
`Registry.inducedSlot_of_not_founded` (with which fault it cannot). -/

namespace SlotFrame

/-! ### Founded names -/

section founded

variable {α : Type} [Inheriting α] {kind : ElementKind} {definition? : String → Option α}
  {start : String}

/-- All that a name leads to by its parents and mixins, itself included, is defined, and none of it
leads back to itself. -/
structure Founded (kind : ElementKind) (definition? : String → Option α) (start : String) :
    Prop where
  defined : ∀ n, (Above.declared kind {} definition?).Reaches start n → ∃ e, definition? n = some e
  noReturn : ∀ n, (Above.declared kind {} definition?).Reaches start n →
    ¬ (Above.declared kind {} definition?).Ascends n n

theorem exists_declared_iff {o : Traversal} {n : String} :
    (∃ names, Above.declared kind o definition? n = .ok names) ↔ ∃ e, definition? n = some e := by
  unfold Above.declared
  cases definition? n with
  | none => simp
  | some e => simp

/-- The names above a name can be told exactly if it is founded. -/
theorem Hierarchy.exists_ancestors_iff_founded {h : Hierarchy} (hs : h.Sized)
    (habove : h.above = .declared kind {} definition?) {reflexive : Bool} :
    (∃ names, h.ancestors start reflexive = .ok names) ↔ Founded kind definition? start := by
  rw [exists_ancestors_iff hs, habove]
  simp only [exists_declared_iff]
  constructor
  · intro hall
    exact ⟨fun n hn => (hall n hn).1, fun n hn => (hall n hn).2⟩
  · intro hfounded n hn
    exact ⟨hfounded.defined n hn, hfounded.noReturn n hn⟩

/-- Where a name is not founded, there is a fault that explains why the names above it cannot be
told. -/
theorem Hierarchy.exists_fault_of_not_founded {h : Hierarchy} (hs : h.Sized)
    (habove : h.above = .declared h.kind {} definition?)
    (hnot : ¬ Founded h.kind definition? start) (reflexive : Bool) :
    ∃ f, h.ancestors start reflexive = .error f ∧
      Explains h.kind (.declared h.kind {} definition?) start f := by
  have hnone : ¬ ∃ names, h.ancestors start reflexive = .ok names :=
    fun hok => hnot ((exists_ancestors_iff_founded hs habove).1 hok)
  obtain ⟨f, hf⟩ := Result.exists_error_of_not_ok hnone
  have hwhy := fault_of_ancestors hs hf
  rw [habove] at hwhy
  exact ⟨f, hf, hwhy⟩

end founded

namespace Registry

variable {r : Registry} {name : String} {className : Option String}

/-! ### The conditions -/

/-- The class that a slot is seen from is founded, if there is one. -/
def ScopeFounded (r : Registry) (className : Option String) : Prop :=
  ∀ c ∈ className, Founded .classDef r.class? c

/-- Some document declares a name as a slot, or as an attribute of some class. -/
def Declares (r : Registry) (name : String) : Prop :=
  ∃ d ∈ r.documents true, name ∈ d.slots.keys ∨ name ∈ attributeNames d

instance (r : Registry) (name : String) : Decidable (r.Declares name) :=
  inferInstanceAs (Decidable (∃ d ∈ r.documents true,
    name ∈ d.slots.keys ∨ name ∈ attributeNames d))

/-- The definition of a slot itself as it is seen from a class, or from none. -/
def OwnDefinition (r : Registry) (name : String) (className : Option String) (own : SlotDef) :
    Prop :=
  ∃ classes, r.scope className = .ok classes ∧ r.ownDefinition name className classes = .ok own

/-- The slots as they are found, where a name stands for a definition of its own. -/
def slotAs? (r : Registry) (name : String) (own : SlotDef) (n : String) : Option SlotDef :=
  if n = name then some own else r.slot? n

theorem above_slotsUpFrom_eq_slotAs? (own : SlotDef) :
    (r.slotsUpFrom { reflexive := false } name own).above =
      .declared .slotDef {} (r.slotAs? name own) := above_slotsUpFrom r { reflexive := false } name own

/-! ### Each stage -/

theorem exists_scope_iff : (∃ classes, r.scope className = .ok classes) ↔
    r.ScopeFounded className := by
  cases className with
  | none =>
    have hscope : ∃ classes, r.scope none = .ok classes := ⟨[], rfl⟩
    have hfounded : r.ScopeFounded none := by simp [ScopeFounded]
    exact iff_of_true hscope hfounded
  | some c =>
    have hclasses : (∃ classes, r.scope (some c) = .ok classes) ↔ Founded .classDef r.class? c :=
      Hierarchy.exists_ancestors_iff_founded (r.sized_classesUp {}) (r.above_classesUp {})
    rw [hclasses]
    simp [ScopeFounded]

theorem isSome_ownSlot?_iff : (r.ownSlot? name).isSome = true ↔
    ∃ d ∈ r.documents true, name ∈ d.slots.keys := by
  unfold ownSlot? find?
  simp only [List.findSome?_isSome_iff, List.mem_reverse, Table.mem_keys_iff]

theorem isSome_attributeIn?_iff {d : Schema} :
    (attributeIn? name d).isSome = true ↔ name ∈ attributeNames d := by
  unfold attributeIn? attributeNames
  simp only [List.findSome?_isSome_iff, List.mem_flatMap, Table.mem_keys_iff]

theorem isSome_slot?_iff_declares : (r.slot? name).isSome = true ↔ r.Declares name := by
  rw [isSome_slot?_iff, isSome_ownSlot?_iff]
  simp only [isSome_attributeIn?_iff]
  unfold Declares
  constructor
  · rintro (⟨d, hd, hslot⟩ | ⟨d, hd, hattribute⟩)
    · exact ⟨d, hd, .inl hslot⟩
    · exact ⟨d, hd, .inr hattribute⟩
  · rintro ⟨d, hd, hslot | hattribute⟩
    · exact .inl ⟨d, hd, hslot⟩
    · exact .inr ⟨d, hd, hattribute⟩

/-- Whether a slot has an own definition does not depend on the classes in scope. -/
theorem exists_ownDefinition_iff {classes : List String} :
    (∃ own, r.ownDefinition name className classes = .ok own) ↔ r.Declares name := by
  rw [← isSome_slot?_iff_declares, Option.isSome_iff_exists]
  constructor
  · rintro ⟨own, hown⟩
    exact r.slot?_of_ownDefinition hown
  · rintro ⟨s, hs⟩
    unfold ownDefinition
    rw [hs]
    cases (r.ownSlot? name).or (r.scopedAttribute? classes name) with
    | none => exact ⟨s, rfl⟩
    | some own => exact ⟨own, rfl⟩

theorem ownDefinition_of_not_declares {classes : List String} (h : ¬ r.Declares name) :
    r.ownDefinition name className classes = .error (.unresolved .slotDef name className) := by
  have hnone : ¬ ∃ own, r.ownDefinition name className classes = .ok own :=
    fun hown => h (exists_ownDefinition_iff.1 hown)
  obtain ⟨f, hf⟩ := Result.exists_error_of_not_ok hnone
  rw [hf]
  unfold ownDefinition at hf
  split at hf
  · cases hf
  · exact hf.symm

theorem exists_slotAncestorsOf_iff {own : SlotDef} :
    (∃ above, r.slotAncestorsOf { reflexive := false } name own = .ok above) ↔
      Founded .slotDef (r.slotAs? name own) name :=
  Hierarchy.exists_ancestors_iff_founded (r.sized_slotsUpFrom _ name own)
    (above_slotsUpFrom_eq_slotAs? own)

/-! ### All stages -/

/-- A slot can be induced exactly if its scope is founded, its name is declared, and it is founded
when it stands for its own definition. -/
theorem exists_inducedSlot_iff : (∃ d, r.inducedSlot name className = .ok d) ↔
    r.ScopeFounded className ∧ r.Declares name ∧ ∃ own, r.OwnDefinition name className own ∧
      Founded .slotDef (r.slotAs? name own) name := by
  constructor
  · rintro ⟨d, hd⟩
    obtain ⟨s, -⟩ := r.exists_slotSources hd
    have hown := s.ownDefinition_eq
    exact ⟨exists_scope_iff.1 ⟨_, s.scope⟩, exists_ownDefinition_iff.1 ⟨_, hown⟩, s.own,
      ⟨s.classes, s.scope, hown⟩, exists_slotAncestorsOf_iff.1 ⟨_, s.ancestors⟩⟩
  · rintro ⟨-, -, own, ⟨classes, hscope, hown⟩, hfounded⟩
    obtain ⟨above, habove⟩ := exists_slotAncestorsOf_iff.2 hfounded
    cases hd : r.inducedSlot name className with
    | ok d => exact ⟨d, rfl⟩
    | error f =>
      -- none of the three stages can be the one that failed
      rcases inducedSlot_eq_error_iff.1 hd with hf | ⟨classes', hscope', hf | ⟨own', hown', hf⟩⟩
      · cases hscope.symm.trans hf
      · cases hscope.symm.trans hscope'
        cases hown.symm.trans hf
      · cases hscope.symm.trans hscope'
        cases hown.symm.trans hown'
        cases habove.symm.trans hf

/-- Without a scope the fault is that of the classes above the class. -/
theorem inducedSlot_of_not_scopeFounded (h : ¬ r.ScopeFounded className) : ∃ c f,
    className = some c ∧ r.classAncestors {} c = .error f ∧
      Explains .classDef (.declared .classDef {} r.class?) c f ∧
      r.inducedSlot name className = .error f := by
  cases className with
  | none => exact absurd (exists_scope_iff.1 ⟨[], rfl⟩) h
  | some c =>
    have hnot : ¬ Founded .classDef r.class? c := fun hfounded => h (by simpa [ScopeFounded])
    obtain ⟨f, hf, hwhy⟩ := Hierarchy.exists_fault_of_not_founded (r.sized_classesUp {})
      (r.above_classesUp {}) hnot true
    exact ⟨c, f, rfl, hf, hwhy, inducedSlot_eq_error_iff.2 (.inl hf)⟩

/-- Without a declaration the fault is the name itself. -/
theorem inducedSlot_of_not_declares (hscope : r.ScopeFounded className) (h : ¬ r.Declares name) :
    r.inducedSlot name className = .error (.unresolved .slotDef name className) := by
  obtain ⟨classes, hclasses⟩ := exists_scope_iff.2 hscope
  apply inducedSlot_eq_error_iff.2
  exact .inr ⟨classes, hclasses, .inl (ownDefinition_of_not_declares h)⟩

/-- A declared slot in a scope has an own definition; where that is not founded the fault is that of
the slots above it. -/
theorem inducedSlot_of_not_founded (hscope : r.ScopeFounded className) (h : r.Declares name) :
    ∃ own, r.OwnDefinition name className own ∧
      (¬ Founded .slotDef (r.slotAs? name own) name → ∃ f,
        r.slotAncestorsOf { reflexive := false } name own = .error f ∧
          Explains .slotDef (.declared .slotDef {} (r.slotAs? name own)) name f ∧
          r.inducedSlot name className = .error f) := by
  obtain ⟨classes, hclasses⟩ := exists_scope_iff.2 hscope
  obtain ⟨own, hown⟩ := exists_ownDefinition_iff.2 h
  refine ⟨own, ⟨classes, hclasses, hown⟩, fun hnot => ?_⟩
  obtain ⟨f, hf, hwhy⟩ := Hierarchy.exists_fault_of_not_founded (r.sized_slotsUpFrom _ name own)
    (above_slotsUpFrom_eq_slotAs? own) hnot false
  have hstages := inducedSlot_eq_error_iff.2 (.inr ⟨classes, hclasses, .inr ⟨own, hown, hf⟩⟩)
  exact ⟨f, hf, hwhy, hstages⟩

end Registry

end SlotFrame
