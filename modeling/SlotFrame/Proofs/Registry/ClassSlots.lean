import SlotFrame.Proofs.Hierarchy.Acyclicity
import SlotFrame.Proofs.Registry.Precedence
import SlotFrame.Proofs.Registry.Unambiguous

/-! # The slots that a class has

A class has the slots and attributes of all classes above it, so it has all slots of each of them.
The hierarchies of classes and slots know only names that the documents declare and are sized by
their number, so a class is found above another whenever that leads to it.

Main definition: `Registry.HasSlot`.

Main statements: `Registry.hasSlot_iff` and `Registry.HasSlot.of_ancestor`. -/

namespace SlotFrame

namespace Hierarchy

variable {h : Hierarchy} {start n : String} {names : List String}

/-- A name stands first among all that is above it, itself included. -/
theorem exists_ancestors_cons (hn : h.ancestors start true = .ok names) :
    ∃ rest, names = start :: rest := by
  obtain ⟨_, hc⟩ := ancestors_eq_ok_iff.1 hn
  obtain ⟨rest, hrest⟩ := prefix_of_closureFrom (settle_eq_ok hc)
  exact ⟨rest, hrest.symm⟩

/-- What is above a name that is above another is above that one. -/
theorem ancestors_of_mem (hs : h.Sized) (hn : h.ancestors start true = .ok names)
    (hmem : n ∈ names) : ∃ names', h.ancestors n true = .ok names' ∧ ∀ p ∈ names', p ∈ names := by
  have hreach : ∀ {p}, p ∈ names ↔ h.above.Reaches start p := by
    intro p
    rw [mem_ancestors_iff hn, Above.reaches_iff, or_comm]
    simp
  have hall := (exists_ancestors_iff hs).1 ⟨names, hn⟩
  have hfrom := hreach.1 hmem
  obtain ⟨names', hn'⟩ : ∃ names', h.ancestors n true = .ok names' :=
    (exists_ancestors_iff hs).2 fun p hp => hall p (hfrom.trans hp)
  refine ⟨names', hn', fun p hp => hreach.2 ?_⟩
  rcases (mem_ancestors_iff hn').1 hp with hasc | ⟨rfl, _⟩
  · exact (hfrom.ascends hasc).reaches
  · exact hfrom

end Hierarchy

namespace Registry

variable {r : Registry}

/-! ### Hierarchies and their sizes -/

theorem mem_keys_of_find? {α : Type} {select : Schema → Table α} {name : String} {a : α}
    (h : r.find? select name = some a) :
    name ∈ (r.documents true).flatMap fun d => (select d).keys := by
  obtain ⟨d, hd, hg⟩ := r.mem_documents_of_find? h
  refine List.mem_flatMap.2 ⟨d, hd, (Table.mem_keys_iff _ _).2 ?_⟩
  rw [hg]
  rfl

theorem mem_classes_iff {c : String} :
    c ∈ (r.classes true).keys ↔ ∃ k, r.class? c = some k := by
  rw [Table.mem_keys_iff, Option.isSome_iff_exists]
  unfold classes
  rw [get?_aggregate]
  rfl

theorem sized_classesUp (r : Registry) (o : Traversal) : (r.classesUp o).Sized := by
  refine ⟨_, ?_, Nat.lt_succ_self _⟩
  intro c parents hc
  obtain ⟨k, hk⟩ := r.class?_of_classParents hc
  exact mem_keys_of_find? hk

/-- A slot that is found is declared as a slot or as an attribute. -/
theorem declared_of_slot? {n : String} {s : SlotDef} (h : r.slot? n = some s) :
    n ∈ ((r.documents true).flatMap fun d => d.slots.keys) ++
      (r.documents true).flatMap attributeNames := by
  unfold slot? at h
  rw [List.mem_append]
  cases hown : r.ownSlot? n with
  | some own => exact .inl (mem_keys_of_find? hown)
  | none =>
    rw [hown, Option.none_or] at h
    obtain ⟨d, hd, hin⟩ := List.exists_of_findSome?_eq_some h
    obtain ⟨k, hk, ha⟩ := List.exists_of_findSome?_eq_some hin
    have hkey : n ∈ k.attributes.keys := by
      rw [Table.mem_keys_iff, ha]
      rfl
    exact .inr (List.mem_flatMap.2 ⟨d, List.mem_reverse.1 hd, List.mem_flatMap.2 ⟨k, hk, hkey⟩⟩)

theorem sized_slotsUpFrom (r : Registry) (o : Traversal) (name : String) (own : SlotDef) :
    (r.slotsUpFrom o name own).Sized := by
  refine ⟨name :: (((r.documents true).flatMap fun d => d.slots.keys) ++
    (r.documents true).flatMap attributeNames), ?_, ?_⟩
  · intro n parents hn
    by_cases he : n = name
    · exact List.mem_cons.2 (.inl he)
    · have hparents : r.slotParents o n = .ok parents := (if_neg he).symm.trans hn
      obtain ⟨s, hs⟩ := r.slot?_of_slotParents hparents
      exact List.mem_cons_of_mem _ (declared_of_slot? hs)
  · rw [List.length_cons, List.length_append]
    exact Nat.lt_succ_self _

/-! ### Slots of classes -/

/-- A class has a slot. -/
def HasSlot (r : Registry) (c n : String) : Prop := ∃ names, r.classSlots c = .ok names ∧ n ∈ names

theorem mem_foldl_addNames {ks : List ClassDef} {found : List String} {n : String} :
    n ∈ ks.foldl (fun names k => addNames names (slotNames k)) found ↔
      n ∈ found ∨ ∃ k ∈ ks, n ∈ slotNames k := by
  induction ks generalizing found with
  | nil => simp
  | cons k ks ih =>
    rw [List.foldl_cons, ih, mem_addNames, or_assoc]
    simp

theorem classSlots_eq_ok_iff {c : String} {names : List String} :
    r.classSlots c = .ok names ↔ ∃ cs, r.classAncestors {} c = .ok cs ∧
      (cs.filterMap r.class?).foldl (fun names k => addNames names (slotNames k)) [] = names := by
  unfold classSlots
  rw [Result.bind_eq_ok_iff]
  constructor
  · rintro ⟨cs, hcs, ⟨⟩⟩
    exact ⟨cs, hcs, rfl⟩
  · rintro ⟨cs, hcs, rfl⟩
    exact ⟨cs, hcs, rfl⟩

/-- A class has what some class above it declares. -/
theorem hasSlot_iff {c n : String} : r.HasSlot c n ↔
    ∃ cs, r.classAncestors {} c = .ok cs ∧ ∃ a ∈ cs, ∃ k, r.class? a = some k ∧
      n ∈ slotNames k := by
  have hmem : ∀ cs : List String, n ∈ (cs.filterMap r.class?).foldl
      (fun names k => addNames names (slotNames k)) [] ↔
        ∃ a ∈ cs, ∃ k, r.class? a = some k ∧ n ∈ slotNames k := by
    intro cs
    rw [mem_foldl_addNames]
    constructor
    · rintro (hnil | ⟨k, hk, hn⟩)
      · cases hnil
      · obtain ⟨a, ha, hka⟩ := List.mem_filterMap.1 hk
        exact ⟨a, ha, k, hka, hn⟩
    · rintro ⟨a, ha, k, hka, hn⟩
      exact .inr ⟨k, List.mem_filterMap.2 ⟨a, ha, hka⟩, hn⟩
  constructor
  · rintro ⟨names, hnames, hn⟩
    obtain ⟨cs, hcs, rfl⟩ := classSlots_eq_ok_iff.1 hnames
    exact ⟨cs, hcs, (hmem cs).1 hn⟩
  · rintro ⟨cs, hcs, ha⟩
    exact ⟨_, classSlots_eq_ok_iff.2 ⟨cs, hcs, rfl⟩, (hmem cs).2 ha⟩

theorem HasSlot.class? {c n : String} (h : r.HasSlot c n) : ∃ k, r.class? c = some k := by
  obtain ⟨cs, hcs, _⟩ := hasSlot_iff.1 h
  obtain ⟨rest, rfl⟩ := Hierarchy.exists_ancestors_cons hcs
  have hscope : r.scope (some c) = .ok (c :: rest) := hcs
  exact r.class?_of_mem_scope hscope c List.mem_cons_self

/-- A class has all slots of the classes above it. -/
theorem HasSlot.of_ancestor {a c n : String} {cs : List String} (h : r.HasSlot a n)
    (hcs : r.classAncestors {} c = .ok cs) (ha : a ∈ cs) : r.HasSlot c n := by
  obtain ⟨as, has, b, hb, hk⟩ := hasSlot_iff.1 h
  obtain ⟨as', has', hsub⟩ := Hierarchy.ancestors_of_mem (r.sized_classesUp {}) hcs ha
  have hsame : as' = as := Except.ok.inj (has'.symm.trans has)
  exact hasSlot_iff.2 ⟨cs, hcs, b, hsub b (hsame ▸ hb), hk⟩

/-- A class has what it declares itself. -/
theorem HasSlot.of_declared {c n : String} {cs : List String} {k : ClassDef}
    (hcs : r.classAncestors {} c = .ok cs) (hk : r.class? c = some k) (hn : n ∈ slotNames k) :
    r.HasSlot c n := by
  obtain ⟨rest, rfl⟩ := Hierarchy.exists_ancestors_cons hcs
  exact hasSlot_iff.2 ⟨_, hcs, c, List.mem_cons_self, k, hk, hn⟩

end Registry

end SlotFrame
