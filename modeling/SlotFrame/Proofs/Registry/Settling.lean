import SlotFrame.Proofs.Registry.Materialized
import SlotFrame.Proofs.Schema.Absorption

/-! # Slots that stay the same once they are written out

What a class sees of its slots is found again as attributes when the slots are induced anew: as the
own definition of a slot that is declared nowhere else, as what the classes above say, and as the
slots above. The induced definition, which is filled up by all that it was made of, stays the same
exactly if it covers all that it is made of anew. That can be told beforehand of a slot that is
settled: nothing that is written out sets what its definition leaves open or leads to other slots. A
slot that is declared as one, like all slots above it, is always settled.

Main definitions: `Registry.SlotSources.Recovered`, `Registry.SlotSources.Settled`,
`Registry.AllSettled`.

Main statements: `Registry.Materialized.inducedSlot_eq_ok_iff` (which slots stay the same),
`Registry.Materialized.recovered` (settled ones do) and `Registry.Materialized.materialize` (if all
are settled, nothing is left to write). -/

namespace SlotFrame

/-- The slots directly above a definition. -/
abbrev SlotDef.parents (d : SlotDef) : List String := Traversal.above {} d

namespace Registry

variable {r m : Registry} {name c : String} {d : SlotDef}

/-! ### Steps between slots -/

theorem parent_self_iff {own : SlotDef} {p : String} :
    (r.slotsUpFrom { reflexive := false } name own).above.Parent name p ↔ p ∈ own.parents := by
  constructor
  · rintro ⟨names, hnames, hp⟩
    have hparents : own.parents = names := Except.ok.inj ((if_pos rfl).symm.trans hnames)
    rw [hparents]
    exact hp
  · exact fun hp => ⟨own.parents, if_pos rfl, hp⟩

theorem parent_iff_of_ne {own : SlotDef} {n p : String} (hn : n ≠ name) :
    (r.slotsUpFrom { reflexive := false } name own).above.Parent n p ↔
      ∃ x, r.slot? n = some x ∧ p ∈ x.parents := by
  constructor
  · rintro ⟨names, hnames, hp⟩
    have hknown : r.slotParents { reflexive := false } n = .ok names :=
      (if_neg hn).symm.trans hnames
    obtain ⟨x, hx⟩ := r.slot?_of_slotParents hknown
    unfold slotParents at hknown
    rw [hx] at hknown
    have hparents : x.parents = names := Except.ok.inj hknown
    exact ⟨x, hx, hparents ▸ hp⟩
  · rintro ⟨x, hx, hp⟩
    refine ⟨x.parents, (if_neg hn).trans ?_, hp⟩
    unfold slotParents
    rw [hx]
    rfl

/-! ### Slots that are settled -/

namespace SlotSources

/-- The slots upwards, the slot itself standing for its own definition. -/
abbrev hierarchy {className : Option String} (s : r.SlotSources name className) : Hierarchy :=
  r.slotsUpFrom { reflexive := false } name s.own

/-- A definition covers all that it is made of anew in a registry that is written out: what the
classes above saw, and what now stands for the slots above its own definition, which is the slot
itself if it is declared as one, or else what the class saw. -/
structure Recovered (s : r.SlotSources name (some c)) (m : Registry) (d : SlotDef) : Prop where
  seen : ∀ a ∈ s.classes, ∀ e, r.Sees a name e → d.Covers e
  above : ∃ above,
    m.slotAncestorsOf { reflexive := false } name ((r.ownSlot? name).getD d) = .ok above ∧
      ∀ n ∈ above, ∀ e, m.slot? n = some e → d.Covers e

/-- Nothing that is written out sets what a definition leaves open, or leads to other slots. -/
structure Settled (s : r.SlotSources name (some c)) (d : SlotDef) : Prop where
  /-- What the classes above see of an attribute leaves it as it is. -/
  seen : r.ownSlot? name = none → ∀ a ∈ s.classes, ∀ e, r.Sees a name e → d.Covers e
  /-- An attribute has come to inherit from nothing that was not above it. -/
  parents : r.ownSlot? name = none → ∀ p ∈ d.parents, p ∈ s.above
  /-- What any class sees of an attribute above leaves the slot as it is, and has come to inherit
  from nothing that was not above it. -/
  above : ∀ n ∈ s.above, r.ownSlot? n = none → ∀ x e, r.Sees x n e →
    d.Covers e ∧ ∀ p ∈ e.parents, s.hierarchy.above.Ascends n p

/-- Where no attribute is met nothing has to be asked. -/
theorem Settled.of_slots {s : r.SlotSources name (some c)} (hname : (r.ownSlot? name).isSome)
    (habove : ∀ n ∈ s.above, (r.ownSlot? n).isSome) (d : SlotDef) : s.Settled d where
  seen hnone := by
    rw [hnone] at hname
    cases hname
  parents hnone := by
    rw [hnone] at hname
    cases hname
  above n hn hnone := by
    have hsome := habove n hn
    rw [hnone] at hsome
    cases hsome

variable {className : Option String} (s : r.SlotSources name className)

theorem mem_above_iff {n : String} : n ∈ s.above ↔ s.hierarchy.above.Ascends name n := by
  rw [Hierarchy.mem_ancestors_iff s.ancestors]
  simp

/-- All that a slot leads to is known and does not lead back to itself. -/
theorem known_of_reaches {n : String} (hn : s.hierarchy.above.Reaches name n) :
    (∃ names, s.hierarchy.above n = .ok names) ∧ ¬ s.hierarchy.above.Ascends n n :=
  (Hierarchy.exists_ancestors_iff (r.sized_slotsUpFrom _ name s.own)).1 ⟨s.above, s.ancestors⟩ n hn

theorem mem_kinds_of_class? {a : String} {k : ClassDef} (ha : a ∈ s.classes)
    (hk : r.class? a = some k) : k ∈ s.kinds := by
  have hkind : some k ∈ s.kinds.map some := by
    rw [← s.classes_known, ← hk]
    exact List.mem_map_of_mem ha
  obtain ⟨k', hk', heq⟩ := List.mem_map.1 hkind
  cases heq
  exact hk'

/-- What a class in scope says about a slot is among its definitions. -/
theorem mem_list_of_saidBy {a : String} {k : ClassDef} {x : SlotDef} (ha : a ∈ s.classes)
    (hk : r.class? a = some k) (hx : x ∈ saidBy name k) : x ∈ s.list :=
  have hkind := s.mem_kinds_of_class? ha hk
  List.mem_append_left _ (List.mem_cons_of_mem _ (List.mem_flatMap.2 ⟨k, hkind, hx⟩))

/-- What a slot above stands for is among its definitions. -/
theorem mem_list_of_above {n : String} {x : SlotDef} (hn : n ∈ s.above)
    (hx : r.slot? n = some x) : x ∈ s.list := by
  have hparent : some x ∈ s.parents.map some := by
    rw [← s.above_known, ← hx]
    exact List.mem_map_of_mem hn
  obtain ⟨x', hx', heq⟩ := List.mem_map.1 hparent
  cases heq
  exact List.mem_append_right _ hx'

theorem fillFrom_list (h : r.inducedSlot name className = .ok d) :
    SlotDef.fillFrom s.list = d :=
  Except.ok.inj (s.inducedSlot_eq.symm.trans h)

/-- An induced definition covers all that it was made of. -/
theorem covers_of_mem_list (h : r.inducedSlot name className = .ok d) {x : SlotDef}
    (hx : x ∈ s.list) : d.Covers x := by
  rw [← s.fillFrom_list h]
  exact SlotDef.covers_of_mem hx

/-- A slot that is declared as one is its own definition wherever it is seen from. -/
theorem own_of_slot {o : SlotDef} (ho : r.ownSlot? name = some o) : s.own = o := by
  have hown := s.own_found
  rw [ho, Option.some_or, Option.some_or] at hown
  cases hown
  rfl

theorem class?_of_mem_kinds {k : ClassDef} (hk : k ∈ s.kinds) :
    ∃ a ∈ s.classes, r.class? a = some k := by
  have hknown : some k ∈ s.classes.map r.class? := by
    rw [s.classes_known]
    exact List.mem_map_of_mem hk
  exact List.mem_map.1 hknown

/-- What is said about a slot within the scope of a class above is said within that of the class. -/
theorem mem_list_of_said {s : r.SlotSources name (some c)} {a : String} (ha : a ∈ s.classes)
    (t : r.SlotSources name (some a)) {x : SlotDef} (hx : x ∈ t.kinds.flatMap (saidBy name)) :
    x ∈ s.list := by
  obtain ⟨as, has, hsub⟩ := Hierarchy.ancestors_of_mem (r.sized_classesUp {}) s.scope ha
  have hclasses : t.classes = as := Except.ok.inj (t.scope.symm.trans has)
  obtain ⟨k, hk, hx⟩ := List.mem_flatMap.1 hx
  obtain ⟨b, hb, hkb⟩ := t.class?_of_mem_kinds hk
  exact s.mem_list_of_saidBy (hsub b (hclasses ▸ hb)) hkb hx

/-- What a class above sees of a slot that is declared as one is made of definitions that are there
for the class too. -/
theorem list_subset_of_slot {o : SlotDef} (ho : r.ownSlot? name = some o)
    {s : r.SlotSources name (some c)} {a : String} (ha : a ∈ s.classes)
    (t : r.SlotSources name (some a)) : ∀ x ∈ t.list, x ∈ s.list := by
  have hown : t.own = s.own := (t.own_of_slot ho).trans (s.own_of_slot ho).symm
  have habove : t.above = s.above := by
    have hancestors := t.ancestors
    rw [hown, s.ancestors] at hancestors
    exact (Except.ok.inj hancestors).symm
  intro x hx
  rcases List.mem_append.1 hx with hx | hx
  · rcases List.mem_cons.1 hx with rfl | hx
    · rw [hown]
      exact List.mem_append_left _ List.mem_cons_self
    · exact mem_list_of_said ha t hx
  · have hknown : some x ∈ t.above.map r.slot? := by
      rw [t.above_known]
      exact List.mem_map_of_mem hx
    obtain ⟨n, hn, hnx⟩ := List.mem_map.1 hknown
    exact s.mem_list_of_above (habove ▸ hn) hnx

/-- What a class above makes of a slot that is declared as one leaves it as it is. -/
theorem covers_of_slot {o : SlotDef} (ho : r.ownSlot? name = some o)
    {s : r.SlotSources name (some c)} (hd : r.inducedSlot name (some c) = .ok d) {a : String}
    (ha : a ∈ s.classes) {e : SlotDef} (he : r.inducedSlot name (some a) = .ok e) :
    d.Covers e := by
  obtain ⟨t, rfl⟩ := r.exists_slotSources he
  have hsub := list_subset_of_slot ho ha t
  exact .fillFrom fun y hy => s.covers_of_mem_list hd (hsub y hy)

/-- What a class above sees of a settled slot leaves it as it is. -/
theorem Settled.covers_of_sees {s : r.SlotSources name (some c)} (hs : s.Settled d)
    (hd : r.Sees c name d) {a : String} (ha : a ∈ s.classes) {e : SlotDef}
    (he : r.Sees a name e) : d.Covers e := by
  cases hown : r.ownSlot? name with
  | none => exact hs.seen hown a ha e he
  | some o => exact covers_of_slot hown hd.2 ha he.2

end SlotSources

/-- All that the classes see of their slots is settled. -/
def AllSettled (r : Registry) : Prop :=
  ∀ c n d, r.Sees c n d → ∃ s : r.SlotSources n (some c), s.Settled d

/-! ### Slots induced anew -/

namespace Materialized

variable (hm : r.Materialized m)

include hm

/-- A slot is found as before or as what some class sees of an attribute. -/
theorem slot?_cases (n : String) : m.slot? n = r.slot? n ∨
    (r.ownSlot? n = none ∧ ∃ x e, m.slot? n = some e ∧ r.Sees x n e) := by
  cases hown : r.ownSlot? n with
  | some o =>
    left
    unfold Registry.slot?
    rw [hm.ownSlot?, hown]
    rfl
  | none =>
    rcases hm.slot? n with hsame | hseen
    · exact .inl hsame
    · exact .inr ⟨rfl, hseen⟩

variable (s : r.SlotSources name (some c))

/-- The definition that a slot is then filled from first: itself if it is declared as a slot, or
else what the class sees. -/
theorem ownDefinition (hd : r.Sees c name d) : m.ownDefinition name (some c) s.classes =
    .ok ((r.ownSlot? name).getD d) := by
  obtain ⟨k, hk⟩ := hd.1.class?
  obtain ⟨t, ht, hseen⟩ := hm.class? c k hk
  obtain ⟨rest, hrest⟩ := Hierarchy.exists_ancestors_cons s.scope
  have hscoped : m.scopedAttribute? s.classes name = some d := by
    unfold scopedAttribute?
    have hfirst : ((m.class? c).bind fun k => k.attributes.get? name) = some d := by
      rw [ht]
      exact (hseen name d).2 hd
    rw [hrest, List.findSome?_cons, hfirst]
  unfold Registry.ownDefinition
  rw [hm.ownSlot?, hscoped]
  cases r.ownSlot? name <;> rfl

variable {s}

/-- What the classes say anew was said before or is what they saw. -/
theorem covers_of_mem_refinements (hd : r.Sees c name d)
    (hseen : ∀ a ∈ s.classes, ∀ e, r.Sees a name e → d.Covers e) {x : SlotDef}
    (hx : x ∈ m.refinements s.classes name) : d.Covers x := by
  obtain ⟨a, ha, hx⟩ := List.mem_flatMap.1 hx
  obtain ⟨k, hk⟩ := r.class?_of_mem_scope s.scope a ha
  obtain ⟨t, ht, hreads⟩ := hm.class? a k hk
  rw [ht] at hx
  rcases List.mem_append.1 hx with hattribute | husage
  · exact hseen a ha x ((hreads name x).1 (Option.mem_toList.1 hattribute))
  · exact s.covers_of_mem_list hd.2 (s.mem_list_of_saidBy ha hk (List.mem_append_right _ husage))

/-- What a class says anew begins with what it sees. -/
theorem exists_refinements_cons (hd : r.Sees c name d) :
    ∃ rest, m.refinements s.classes name = d :: rest := by
  obtain ⟨k, hk⟩ := hd.1.class?
  obtain ⟨t, ht, hseen⟩ := hm.class? c k hk
  obtain ⟨rest, hrest⟩ := Hierarchy.exists_ancestors_cons s.scope
  unfold refinements
  rw [hrest, List.flatMap_cons, ht]
  dsimp only
  rw [(hseen name d).2 hd]
  exact ⟨_, rfl⟩

theorem inducedSlot_of_recovered (hd : r.Sees c name d) (h : s.Recovered m d) :
    m.inducedSlot name (some c) = .ok d := by
  obtain ⟨above, habove, hfound⟩ := h.above
  obtain ⟨rest, hrest⟩ := hm.exists_refinements_cons (s := s) hd
  have hscope : m.scope (some c) = .ok s.classes := (hm.classAncestors {} c).trans s.scope
  have hsources : m.slotSources name (some c) = .ok ((r.ownSlot? name).getD d :: d ::
      (rest ++ above.filterMap m.slot?)) := by
    unfold slotSources
    rw [hscope]
    dsimp only [bind, Except.bind]
    rw [hm.ownDefinition s hd]
    dsimp only [bind, Except.bind]
    rw [habove, hrest]
    rfl
  have hfirst : ((r.ownSlot? name).getD d).fill d = d := by
    cases hown : r.ownSlot? name with
    | none => exact SlotDef.fill_self d
    | some o =>
      have ho := s.own_of_slot hown
      rw [Option.getD_some, ← ho, ← s.fillFrom_list hd.2]
      exact SlotDef.fill_fillFrom_cons s.own _
  have hcovers : ∀ x ∈ rest ++ above.filterMap m.slot?, d.Covers x := by
    intro x hx
    rcases List.mem_append.1 hx with hx | hx
    · refine hm.covers_of_mem_refinements hd h.seen ?_
      rw [hrest]
      exact List.mem_cons_of_mem _ hx
    · obtain ⟨n, hn, hnx⟩ := List.mem_filterMap.1 hx
      exact hfound n hn x hnx
  unfold Registry.inducedSlot
  rw [hsources]
  exact congrArg Except.ok (SlotDef.fillFrom_eq_of_covers hfirst hcovers)

/-- What is made anew covers all that it is made of. -/
theorem recovered_of_inducedSlot (hd : r.Sees c name d) (h : m.inducedSlot name (some c) = .ok d) :
    s.Recovered m d := by
  obtain ⟨u, _⟩ := m.exists_slotSources h
  have hscope : m.scope (some c) = .ok s.classes := (hm.classAncestors {} c).trans s.scope
  have hclasses : u.classes = s.classes := Except.ok.inj (u.scope.symm.trans hscope)
  have hown : u.own = (r.ownSlot? name).getD d := by
    have hfirst := u.ownDefinition_eq
    rw [hclasses, hm.ownDefinition s hd] at hfirst
    exact (Except.ok.inj hfirst).symm
  refine ⟨fun a ha e he => ?_, u.above, hown ▸ u.ancestors, fun n hn e he => ?_⟩
  · obtain ⟨k, hk⟩ := he.1.class?
    obtain ⟨t, ht, hreads⟩ := hm.class? a k hk
    refine u.covers_of_mem_list h (u.mem_list_of_saidBy (hclasses ▸ ha) ht ?_)
    exact List.mem_append_left _ (Option.mem_toList.2 ((hreads name e).2 he))
  · exact u.covers_of_mem_list h (u.mem_list_of_above hn he)

/-- **A slot stays the same exactly if it covers all that it is made of anew.** -/
theorem inducedSlot_eq_ok_iff (s : r.SlotSources name (some c)) (hd : r.Sees c name d) :
    m.inducedSlot name (some c) = .ok d ↔ s.Recovered m d :=
  ⟨hm.recovered_of_inducedSlot hd, hm.inducedSlot_of_recovered hd⟩

/-! ### Settled slots are recovered -/

/-- Every step upwards from what a settled slot leads to was a way upwards before. -/
theorem ascends_of_parent (hs : s.Settled d) {n p : String}
    (hn : s.hierarchy.above.Reaches name n)
    (hp : (m.slotsUpFrom { reflexive := false } name ((r.ownSlot? name).getD d)).above.Parent n p) :
    s.hierarchy.above.Ascends n p := by
  by_cases he : n = name
  · subst he
    rw [parent_self_iff] at hp
    cases hown : r.ownSlot? n with
    | some o =>
      rw [hown, Option.getD_some, ← s.own_of_slot hown] at hp
      exact Above.Parent.ascends (parent_self_iff.2 hp)
    | none =>
      rw [hown, Option.getD_none] at hp
      exact s.mem_above_iff.1 (hs.parents hown p hp)
  · obtain ⟨y, hy, hp⟩ := (parent_iff_of_ne he).1 hp
    rcases hm.slot?_cases n with hsame | ⟨hown, x, e, hfound, hseen⟩
    · exact Above.Parent.ascends ((parent_iff_of_ne he).2 ⟨y, hsame ▸ hy, hp⟩)
    · have habove := s.mem_above_iff.2 ((Above.reaches_iff.1 hn).resolve_left he)
      have hye : e = y := Option.some.inj (hfound.symm.trans hy)
      exact (hs.above n habove hown x e hseen).2 p (hye ▸ hp)

theorem ascends_before (hs : s.Settled d) {n p : String}
    (hn : s.hierarchy.above.Reaches name n)
    (hp : (m.slotsUpFrom { reflexive := false } name
      ((r.ownSlot? name).getD d)).above.Ascends n p) : s.hierarchy.above.Ascends n p :=
  hp.of_parents (fun _ _ hn hp => (hn.ascends hp).reaches)
    (fun _ _ hn hp => hm.ascends_of_parent hs hn hp) hn

theorem reaches_before (hs : s.Settled d) {n : String}
    (hn : (m.slotsUpFrom { reflexive := false } name
      ((r.ownSlot? name).getD d)).above.Reaches name n) : s.hierarchy.above.Reaches name n := by
  have hstart := Above.Reaches.refl s.hierarchy.above name
  rcases Above.reaches_iff.1 hn with rfl | hasc
  · exact hstart
  · exact (hm.ascends_before hs hstart hasc).reaches

theorem exists_slot? {n : String} {x : SlotDef} (hx : r.slot? n = some x) :
    ∃ y, m.slot? n = some y := by
  rcases hm.slot?_cases n with hsame | ⟨_, _, y, hy, _⟩
  · exact ⟨x, hsame.trans hx⟩
  · exact ⟨y, hy⟩

/-- A settled slot leads to no other slots than before, and to no cycle. -/
theorem slotAncestorsOf (hs : s.Settled d) : ∃ above,
    m.slotAncestorsOf { reflexive := false } name ((r.ownSlot? name).getD d) = .ok above ∧
      ∀ n ∈ above, n ∈ s.above := by
  obtain ⟨above, habove⟩ : ∃ above, m.slotAncestorsOf { reflexive := false } name
      ((r.ownSlot? name).getD d) = .ok above := by
    refine (Hierarchy.exists_ancestors_iff (m.sized_slotsUpFrom _ name _)).2 fun n hn => ?_
    have hreach := hm.reaches_before hs hn
    obtain ⟨⟨names, hnames⟩, hback⟩ := s.known_of_reaches hreach
    refine ⟨?_, fun h => hback (hm.ascends_before hs hreach h)⟩
    by_cases he : n = name
    · exact ⟨_, if_pos he⟩
    · obtain ⟨x, hx⟩ := r.slot?_of_slotParents ((if_neg he).symm.trans hnames)
      obtain ⟨y, hy⟩ := hm.exists_slot? hx
      refine ⟨y.parents, (if_neg he).trans ?_⟩
      unfold slotParents
      rw [hy]
      rfl
  refine ⟨above, habove, ?_⟩
  intro n hn
  rcases (Hierarchy.mem_ancestors_iff habove).1 hn with hasc | ⟨_, hno⟩
  · exact s.mem_above_iff.2 (hm.ascends_before hs (Above.Reaches.refl _ name) hasc)
  · cases hno

theorem covers_of_above (hd : r.Sees c name d) (hs : s.Settled d) {n : String}
    {x : SlotDef} (hn : n ∈ s.above) (hx : m.slot? n = some x) : d.Covers x := by
  rcases hm.slot?_cases n with hsame | ⟨hown, y, e, he, hseen⟩
  · rw [hsame] at hx
    exact s.covers_of_mem_list hd.2 (s.mem_list_of_above hn hx)
  · rw [he] at hx
    cases hx
    exact (hs.above n hn hown y x hseen).1

/-- **A settled slot covers all that it is made of anew.** -/
theorem recovered (hd : r.Sees c name d) (hs : s.Settled d) : s.Recovered m d := by
  obtain ⟨above, habove, hsub⟩ := hm.slotAncestorsOf hs
  exact ⟨fun _ ha _ he => hs.covers_of_sees hd ha he, above, habove,
    fun n hn _ he => hm.covers_of_above hd hs (hsub n hn) he⟩

/-- **Writing out again changes nothing** if all that the classes see is settled. -/
theorem materialize (hnames : r.NamesKept) (hall : r.AllSettled) : m.materialize = .ok m := by
  have hsees : ∀ {c n d}, r.Sees c n d → m.inducedSlot n (some c) = .ok d := by
    intro c n d hd
    obtain ⟨s, hs⟩ := hall c n d hd
    exact hm.inducedSlot_of_recovered hd (hm.recovered hd hs)
  have hclass : ∀ c ∈ (m.classes true).keys, ∃ ds, m.classInducedSlots c = .ok ds := by
    intro c hc
    rw [hm.keys_classes] at hc
    obtain ⟨k, hk⟩ := mem_classes_iff.1 hc
    obtain ⟨_, names, _, hnames', _⟩ := hm.classSlots hk
    have hslots : ∀ n ∈ names, ∃ d, m.inducedSlot n (some c) = .ok d := by
      intro n hn
      obtain ⟨d, hd⟩ := (hm.seen c k hk).2 n (hm.hasSlot_iff.1 ⟨names, hnames', hn⟩)
      exact ⟨d, hsees hd⟩
    obtain ⟨ds, hds⟩ := Result.exists_mapM hslots
    exact ⟨ds, Result.bind_eq_ok_iff.2 ⟨names, hnames', hds⟩⟩
  obtain ⟨slots, hslots⟩ : ∃ slots, m.inducedSlots = .ok slots := by
    refine Result.exists_mapM fun c hc => ?_
    obtain ⟨ds, hds⟩ := hclass c hc
    exact ⟨(c, ds), Result.bind_eq_ok_iff.2 ⟨ds, hds, rfl⟩⟩
  refine Result.map_eq_ok_iff.2 ⟨slots, hslots, ?_⟩
  -- What would be written stands there already.
  refine writeAll_eq_self fun e he k' hk' x hx => ?_
  obtain ⟨n, hn, hx⟩ :=
    (sees_of_classInducedSlots ((mem_inducedSlots hslots).2 e he)).2.2 x hx
  obtain ⟨k, hk⟩ := (hm.hasSlot_iff.1 hn).class?
  obtain ⟨t, ht, hseen⟩ := hm.class? e.1 k hk
  obtain ⟨d, hd⟩ := (hm.seen e.1 k hk).2 n (hm.hasSlot_iff.1 hn)
  have hxd : x = d := Except.ok.inj (hx.symm.trans (hsees hd))
  rw [ht] at hk'
  cases hk'
  rw [hxd, hnames e.1 n d hd]
  exact (hseen n d).2 hd

end Materialized

end Registry

end SlotFrame
