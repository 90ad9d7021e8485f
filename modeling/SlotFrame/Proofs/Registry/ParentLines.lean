import SlotFrame.Proofs.Hierarchy.ParentLines
import SlotFrame.Proofs.Schema.Filling

/-! # Lines of types, classes and slots

A type has a parent and nothing else above it. Classes and slots have mixins as well; a traversal
that leaves these out sees parents alone. What stands above such an element is its line of parents,
and a type is induced along its line.

Main statements: `Registry.typeAncestors_eq_ok_iff`, `Registry.classAncestors_eq_ok_iff`,
`Registry.slotAncestors_eq_ok_iff` and `Registry.inducedType_eq_ok_iff`. -/

namespace SlotFrame.Registry

variable {r : Registry} {o : Traversal} {name : String} {names : List String}

/-! ### The hierarchies -/

theorem above_typesUp (r : Registry) (o : Traversal) :
    (r.typesUp o).above = .declared .typeDef o r.type? := by
  funext t
  show r.typeParents o t = _
  unfold typeParents Above.declared
  cases r.type? t <;> rfl

theorem sized_typesUp (r : Registry) (o : Traversal) : (r.typesUp o).Sized := by
  refine ⟨_, ?_, Nat.lt_succ_self _⟩
  intro t parents ht
  have hparents : r.typeParents o t = .ok parents := ht
  unfold typeParents at hparents
  cases hd : r.type? t with
  | none =>
    rw [hd] at hparents
    cases hparents
  | some d => exact mem_keys_of_find? hd

/-- A slot that stands for what is found under its name stands for nothing else. -/
theorem above_slotsUpFrom_of_slot? {s : SlotDef} (hs : r.slot? name = some s) :
    (r.slotsUpFrom o name s).above = .declared .slotDef o r.slot? := by
  have hown : (fun n => if n = name then some s else r.slot? n) = r.slot? := by
    funext n
    by_cases hn : n = name
    · rw [if_pos hn, hn, hs]
    · rw [if_neg hn]
  rw [above_slotsUpFrom, hown]

/-! ### What stands above their elements -/

theorem typeAncestors_eq_ok_iff (hisA : o.isA = true) : r.typeAncestors o name = .ok names ↔
    ∃ line, ParentLine r.type? name line ∧
      names = if o.reflexive then keysOf line else (keysOf line).tail :=
  Hierarchy.ancestors_eq_ok_iff_parentLine hisA (fun _ _ => rfl) (r.sized_typesUp o)
    (r.above_typesUp o)

theorem classAncestors_eq_ok_iff (hisA : o.isA = true) (hmixins : o.mixins = false) :
    r.classAncestors o name = .ok names ↔ ∃ line, ParentLine r.class? name line ∧
      names = if o.reflexive then keysOf line else (keysOf line).tail :=
  Hierarchy.ancestors_eq_ok_iff_parentLine hisA (fun _ hm => by simp [hmixins] at hm)
    (r.sized_classesUp o) (r.above_classesUp o)

theorem slotAncestors_eq_ok_iff (hisA : o.isA = true) (hmixins : o.mixins = false) :
    r.slotAncestors o name = .ok names ↔ ∃ line, ParentLine r.slot? name line ∧
      names = if o.reflexive then keysOf line else (keysOf line).tail := by
  unfold slotAncestors
  cases hs : r.slot? name with
  | none =>
    -- a name without a definition has no line
    refine ⟨nofun, ?_⟩
    rintro ⟨line, hline, -⟩
    cases hline with
    | top hn _ => cases hs.symm.trans hn
    | step hn _ _ => cases hs.symm.trans hn
  | some s =>
    exact Hierarchy.ancestors_eq_ok_iff_parentLine hisA (fun _ hm => by simp [hmixins] at hm)
      (r.sized_slotsUpFrom o name s) (above_slotsUpFrom_of_slot? hs)

/-! ### Induced types -/

/-- An induced type takes every field from the first type of the line that sets it. -/
theorem inducedType_eq_ok_iff {t : TypeDef} : r.inducedType name = .ok t ↔
    ∃ line, ParentLine r.type? name line ∧ t.Nearest (line.map Prod.snd) := by
  unfold inducedType
  rw [Result.bind_eq_ok_iff]
  constructor
  · rintro ⟨names, hnames, ht⟩
    obtain ⟨line, hline, rfl⟩ := (typeAncestors_eq_ok_iff rfl).1 hnames
    refine ⟨line, hline, ?_⟩
    cases ht
    rw [← hline.filterMap_keysOf]
    exact TypeDef.nearest_fillFrom _
  · rintro ⟨line, hline, ht⟩
    refine ⟨keysOf line, (typeAncestors_eq_ok_iff rfl).2 ⟨line, hline, rfl⟩, ?_⟩
    rw [hline.filterMap_keysOf]
    exact congrArg Except.ok ((TypeDef.nearest_fillFrom _).unique ht)

end SlotFrame.Registry
