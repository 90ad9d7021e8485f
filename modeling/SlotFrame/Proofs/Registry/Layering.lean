import SlotFrame.Proofs.Registry.Settling

/-! # Registries in which everything is settled

Where classes list only slots that are declared as such, slots inherit only from such slots, and
what is said within classes inherits from nothing, no search among the attributes of all classes is
ever made. Then writing out the slots of the classes leaves every slot as it was seen. And where
every slot and attribute bears the name that it stands under, so does all that the classes see. Both
can be read off the documents.

Main definitions: `Registry.Layered`, `Registry.Named`.

Main statements: `Registry.Layered.allSettled` and `Registry.Named.namesKept`. -/

namespace SlotFrame

namespace SlotDef

theorem parents_eq_nil_iff {d : SlotDef} : d.parents = [] ↔ d.isA = none ∧ d.mixins = [] := by
  show d.isA.toList ++ d.mixins = [] ↔ _
  rw [List.append_eq_nil_iff]
  cases d.isA <;> simp

/-- What is filled from definitions that inherit from nothing inherits from nothing. -/
theorem parents_fillFrom {sources : List SlotDef} (h : ∀ x ∈ sources, x.parents = []) :
    (fillFrom sources).parents = [] := by
  induction sources with
  | nil => rfl
  | cons x sources ih =>
    obtain ⟨hisA, hmixins⟩ := parents_eq_nil_iff.1 (h x List.mem_cons_self)
    rw [fillFrom_cons, parents_eq_nil_iff]
    have hrest := parents_eq_nil_iff.1 (ih fun y hy => h y (List.mem_cons_of_mem _ hy))
    show x.isA.or _ = none ∧ fillList x.mixins _ = []
    rw [hisA, hmixins]
    exact hrest

end SlotDef

namespace Registry

variable {r : Registry} {name c : String}

/-- A registry in which attributes stand apart from the hierarchy of slots. -/
structure Layered (r : Registry) : Prop where
  /-- What classes list is declared as slots. -/
  listed : ∀ d ∈ r.documents true, ∀ k ∈ d.classes.values, ∀ n ∈ k.slots, (r.ownSlot? n).isSome
  /-- Slots inherit from what is declared as slots. -/
  inherited : ∀ d ∈ r.documents true, ∀ o ∈ d.slots.values, ∀ p ∈ o.parents, (r.ownSlot? p).isSome
  /-- Attributes and refinements inherit from nothing. -/
  said : ∀ d ∈ r.documents true, ∀ k ∈ d.classes.values,
    ∀ a ∈ k.attributes.values ++ k.slotUsage.values, a.parents = []

instance : Decidable r.Layered :=
  decidable_of_iff
    ((∀ d ∈ r.documents true, ∀ k ∈ d.classes.values, ∀ n ∈ k.slots, (r.ownSlot? n).isSome) ∧
      (∀ d ∈ r.documents true, ∀ o ∈ d.slots.values, ∀ p ∈ o.parents, (r.ownSlot? p).isSome) ∧
      ∀ d ∈ r.documents true, ∀ k ∈ d.classes.values,
        ∀ a ∈ k.attributes.values ++ k.slotUsage.values, a.parents = [])
    ⟨fun ⟨hl, hi, hs⟩ => ⟨hl, hi, hs⟩, fun h => ⟨h.listed, h.inherited, h.said⟩⟩

namespace Layered

variable (h : r.Layered)

include h

theorem parents_of_saidBy {a : String} {k : ClassDef} (hk : r.class? a = some k) {x : SlotDef}
    (hx : x ∈ saidBy name k) : x.parents = [] := by
  obtain ⟨d, hd, hg⟩ := r.mem_documents_of_find? hk
  refine h.said d hd k (Table.mem_values_of_get? hg) x ?_
  rcases List.mem_append.1 hx with hx | hx
  · exact List.mem_append_left _ (Table.mem_values_of_get? (Option.mem_toList.1 hx))
  · exact List.mem_append_right _ (Table.mem_values_of_get? (Option.mem_toList.1 hx))

/-- A slot that is found among the attributes of all classes inherits from nothing. -/
theorem parents_of_slot? (hname : r.ownSlot? name = none) {x : SlotDef}
    (hx : r.slot? name = some x) : x.parents = [] := by
  unfold slot? at hx
  rw [hname, Option.none_or] at hx
  obtain ⟨d, hd, hin⟩ := List.exists_of_findSome?_eq_some hx
  obtain ⟨k, hk, ha⟩ := List.exists_of_findSome?_eq_some hin
  exact h.said d (List.mem_reverse.1 hd) k hk x
    (List.mem_append_left _ (Table.mem_values_of_get? ha))

variable (s : r.SlotSources name (some c))

/-- All that a declared slot leads to is declared as slots. -/
theorem isSome_of_mem_above (hname : (r.ownSlot? name).isSome) {n : String} (hn : n ∈ s.above) :
    (r.ownSlot? n).isSome := by
  have hstep : ∀ n p, (r.ownSlot? n).isSome → s.hierarchy.above.Parent n p →
      (r.ownSlot? p).isSome := by
    intro n p hslot hp
    obtain ⟨o, ho⟩ := Option.isSome_iff_exists.1 hslot
    obtain ⟨d, hd, hg⟩ := r.mem_documents_of_find? ho
    refine h.inherited d hd o (Table.mem_values_of_get? hg) p ?_
    by_cases he : n = name
    · subst he
      rw [parent_self_iff, s.own_of_slot ho] at hp
      exact hp
    · obtain ⟨x, hx, hp⟩ := (parent_iff_of_ne he).1 hp
      unfold slot? at hx
      rw [ho, Option.some_or] at hx
      exact Option.some.inj hx ▸ hp
  exact (s.mem_above_iff.1 hn).reaches.mem_of_closed hstep hname

/-- An attribute has no slots above it. -/
theorem above_eq_nil (hname : r.ownSlot? name = none) : s.above = [] := by
  have hown : s.own.parents = [] := by
    have hfound := s.own_found
    rw [hname, Option.none_or] at hfound
    cases hscoped : s.kinds.findSome? fun k => k.attributes.get? name with
    | none =>
      rw [hscoped, Option.none_or] at hfound
      exact h.parents_of_slot? hname hfound
    | some x =>
      rw [hscoped, Option.some_or] at hfound
      cases hfound
      obtain ⟨k, hk, hx⟩ := List.exists_of_findSome?_eq_some hscoped
      obtain ⟨a, _, hka⟩ := s.class?_of_mem_kinds hk
      exact h.parents_of_saidBy hka (List.mem_append_left _ (Option.mem_toList.2 hx))
  rw [List.eq_nil_iff_forall_not_mem]
  intro n hn
  obtain ⟨p, hp, _⟩ := Relation.TransGen.head'_iff.1 (s.mem_above_iff.1 hn)
  rw [parent_self_iff, hown] at hp
  cases hp

/-- An attribute that a class has is made of what the classes in scope say about it. -/
theorem said_of_mem_list (hname : r.ownSlot? name = none) (hhas : r.HasSlot c name) {x : SlotDef}
    (hx : x ∈ s.list) : x ∈ s.kinds.flatMap (saidBy name) := by
  have hparents : s.parents = [] := by
    have hknown := s.above_known
    rw [h.above_eq_nil s hname] at hknown
    exact List.map_eq_nil_iff.1 hknown.symm
  have hown : s.own ∈ s.kinds.flatMap (saidBy name) := by
    obtain ⟨cs, hcs, a, ha, k, hk, hn⟩ := hasSlot_iff.1 hhas
    have hclasses : s.classes = cs := Except.ok.inj (s.scope.symm.trans hcs)
    have hattribute : (k.attributes.get? name).isSome := by
      rcases List.mem_append.1 hn with hlisted | hattribute
      · obtain ⟨d, hd, hg⟩ := r.mem_documents_of_find? hk
        have hslot := h.listed d hd k (Table.mem_values_of_get? hg) name hlisted
        rw [hname] at hslot
        cases hslot
      · exact (Table.mem_keys_iff _ _).1 hattribute
    have hkind := s.mem_kinds_of_class? (hclasses ▸ ha) hk
    have hscoped : (s.kinds.findSome? fun k => k.attributes.get? name).isSome :=
      List.findSome?_isSome_iff.2 ⟨k, hkind, hattribute⟩
    obtain ⟨y, hy⟩ := Option.isSome_iff_exists.1 hscoped
    have hfound := s.own_found
    rw [hname, Option.none_or, hy, Option.some_or] at hfound
    cases hfound
    obtain ⟨k₁, hk₁, hy⟩ := List.exists_of_findSome?_eq_some hy
    exact List.mem_flatMap.2 ⟨k₁, hk₁, List.mem_append_left _ (Option.mem_toList.2 hy)⟩
  rcases List.mem_append.1 hx with hx | hx
  · rcases List.mem_cons.1 hx with rfl | hx
    · exact hown
    · exact hx
  · rw [hparents] at hx
    cases hx

/-- **Where attributes stand apart from the hierarchy of slots all is settled.** -/
theorem allSettled : r.AllSettled := by
  intro c n d hd
  obtain ⟨s, hfill⟩ := r.exists_slotSources hd.2
  refine ⟨s, ?_⟩
  cases hname : r.ownSlot? n with
  | some o =>
    have hslot : (r.ownSlot? n).isSome := by
      rw [hname]
      rfl
    exact .of_slots hslot (fun _ hx => h.isSome_of_mem_above s hslot hx) d
  | none =>
    refine ⟨?_, ?_, ?_⟩
    · intro _ a ha e he
      obtain ⟨t, rfl⟩ := r.exists_slotSources he.2
      refine .fillFrom fun x hx => s.covers_of_mem_list hd.2 ?_
      exact SlotSources.mem_list_of_said ha t (h.said_of_mem_list t hname he.1 hx)
    · intro _ p hp
      have hroot : d.parents = [] := by
        rw [← hfill]
        refine SlotDef.parents_fillFrom fun x hx => ?_
        obtain ⟨k, hk, hx⟩ := List.mem_flatMap.1 (h.said_of_mem_list s hname hd.1 hx)
        obtain ⟨a, _, hka⟩ := s.class?_of_mem_kinds hk
        exact h.parents_of_saidBy hka hx
      rw [hroot] at hp
      cases hp
    · intro p hp
      rw [h.above_eq_nil s hname] at hp
      cases hp

end Layered

/-! ### Names -/

/-- Every slot and every attribute bears the name that it stands under. -/
def Named (r : Registry) : Prop :=
  ∀ d ∈ r.documents true, ∀ t ∈ d.slots :: d.classes.values.map ClassDef.attributes,
    ∀ e ∈ t.entries, e.2.name = e.1 ∧ e.1 ≠ ""

instance : Decidable r.Named :=
  inferInstanceAs (Decidable (∀ d ∈ r.documents true,
    ∀ t ∈ d.slots :: d.classes.values.map ClassDef.attributes,
      ∀ e ∈ t.entries, e.2.name = e.1 ∧ e.1 ≠ ""))

namespace Named

variable (h : r.Named)

include h

theorem name_of_attribute {d : Schema} {k : ClassDef} {x : SlotDef} (hd : d ∈ r.documents true)
    (hk : k ∈ d.classes.values) (hx : k.attributes.get? name = some x) :
    x.name = name ∧ name ≠ "" :=
  h d hd k.attributes (List.mem_cons_of_mem _ (List.mem_map_of_mem hk)) (name, x)
    (mem_of_lookupKey hx)

theorem name_of_slot? {x : SlotDef} (hx : r.slot? name = some x) : x.name = name ∧ name ≠ "" := by
  unfold slot? at hx
  cases hown : r.ownSlot? name with
  | some o =>
    rw [hown, Option.some_or] at hx
    cases hx
    obtain ⟨d, hd, hg⟩ := r.mem_documents_of_find? hown
    exact h d hd d.slots List.mem_cons_self (name, x) (mem_of_lookupKey hg)
  | none =>
    rw [hown, Option.none_or] at hx
    obtain ⟨d, hd, hin⟩ := List.exists_of_findSome?_eq_some hx
    obtain ⟨k, hk, ha⟩ := List.exists_of_findSome?_eq_some hin
    exact h.name_of_attribute (List.mem_reverse.1 hd) hk ha

theorem name_of_own {className : Option String} (s : r.SlotSources name className) :
    s.own.name = name ∧ name ≠ "" := by
  have hfound := s.own_found
  cases hown : r.ownSlot? name with
  | some o =>
    rw [s.own_of_slot hown]
    refine h.name_of_slot? ?_
    unfold slot?
    rw [hown, Option.some_or]
  | none =>
    rw [hown, Option.none_or] at hfound
    cases hscoped : s.kinds.findSome? fun k => k.attributes.get? name with
    | none =>
      rw [hscoped, Option.none_or] at hfound
      exact h.name_of_slot? hfound
    | some x =>
      rw [hscoped, Option.some_or] at hfound
      cases hfound
      obtain ⟨k, hk, hx⟩ := List.exists_of_findSome?_eq_some hscoped
      obtain ⟨a, _, hka⟩ := s.class?_of_mem_kinds hk
      obtain ⟨d, hd, hg⟩ := r.mem_documents_of_find? hka
      exact h.name_of_attribute hd (Table.mem_values_of_get? hg) hx

/-- What is found under a name keeps it when it is filled. -/
theorem namesKept : r.NamesKept := by
  intro c n d hd
  obtain ⟨s, rfl⟩ := r.exists_slotSources hd.2
  obtain ⟨hname, hne⟩ := h.name_of_own s
  have hlist : s.list = s.own :: (s.kinds.flatMap (saidBy n) ++ s.parents) := rfl
  rw [hlist, SlotDef.fillFrom_cons]
  show fillName s.own.name _ = n
  unfold fillName
  rw [hname, if_neg]
  rwa [String.isEmpty_iff]

end Named

end Registry

end SlotFrame
