import Mathlib.Data.Fintype.EquivFin
import Mathlib.Order.WellFounded
import SlotFrame.Proofs.Registry.Descendants
import SlotFrame.Proofs.Registry.ParentLines

/-! # Roots and leaves

Where all that stands above a name can be told, finitely many names stand there and none leads back
to itself, so every way upwards ends: at a name with nothing above it. The same is so downwards, for
the classes below a class are a hierarchy as well. The ends of the ways are what the scans of the
table of all classes answer: a class is a root exactly if it names no parent, and a leaf exactly if
no class names it.

Main statement: `Registry.roots_and_leaves`. -/

namespace SlotFrame

/-! ### Where a way ends -/

section ends

variable {above : Above} {done : List String}

/-- Among finitely many names that do not lead back to themselves one cannot ascend for ever. -/
theorem Grounded.wellFounded (h : Grounded above done) :
    WellFounded fun p n : {n // n ∈ done} => above.Ascends n p := by
  have htrans : IsTrans {n // n ∈ done} fun p n => above.Ascends n p :=
    ⟨fun _ _ _ hqp hpn => hpn.trans hqp⟩
  have hirrefl : Std.Irrefl fun p n : {n // n ∈ done} => above.Ascends n p :=
    ⟨fun n hback => h.noReturn n n.2 hback⟩
  exact Finite.wellFounded_of_trans_of_irrefl _

/-- Every way upwards ends at a name with nothing above it. -/
theorem Grounded.exists_end (h : Grounded above done) {start : String} (hstart : start ∈ done) :
    ∃ n, above.Reaches start n ∧ above n = .ok [] := by
  suffices hall : ∀ s : {n // n ∈ done}, ∃ n, above.Reaches s n ∧ above n = .ok [] from
    hall ⟨start, hstart⟩
  intro s
  induction s using h.wellFounded.induction with
  | _ s ih =>
    obtain ⟨names, hnames⟩ := h.known s s.2
    cases names with
    | nil => exact ⟨s, .refl above s, hnames⟩
    | cons p rest =>
      have hp : above.Parent s p := ⟨_, hnames, List.mem_cons_self⟩
      obtain ⟨n, hn, hend⟩ := ih ⟨p, h.closed s s.2 p hp⟩ hp.ascends
      exact ⟨n, hp.ascends.reaches.trans hn, hend⟩

/-- Among the names above a name, itself included, is one with nothing above it. -/
theorem Hierarchy.exists_end_of_ancestors {h : Hierarchy} {start : String} {names : List String}
    (hnames : h.ancestors start true = .ok names) : ∃ n ∈ names, h.above n = .ok [] := by
  obtain ⟨done, hg, hstart⟩ := grounded_of_acyclic (ancestors_eq_ok_iff.1 hnames).1
  obtain ⟨n, hn, hend⟩ := hg.exists_end hstart
  refine ⟨n, (mem_ancestors_iff hnames).2 ?_, hend⟩
  rcases Above.reaches_iff.1 hn with rfl | hasc
  · exact Or.inr ⟨rfl, rfl⟩
  · exact Or.inl hasc

/-- A line has one top. -/
theorem ParentLine.existsUnique_top {α : Type} [Inheriting α] {definition? : String → Option α}
    {n : String} {line : List (String × α)} (h : ParentLine definition? n line) :
    ∃! t, t ∈ keysOf line ∧ ∃ e, definition? t = some e ∧ Inheriting.parent e = none := by
  induction h with
  | @top n e hn hp =>
    refine ⟨n, ⟨List.mem_cons_self, e, hn, hp⟩, ?_⟩
    rintro t ⟨ht, -⟩
    exact List.mem_singleton.1 ht
  | @step n p e line hn hp _ ih =>
    obtain ⟨t, ⟨ht, htop⟩, honly⟩ := ih
    refine ⟨t, ⟨List.mem_cons_of_mem n ht, htop⟩, ?_⟩
    rintro t' ⟨ht', e', hn', hp'⟩
    rcases List.mem_cons.1 ht' with rfl | ht'
    · -- a name with a parent is no top
      cases Option.some.inj (hn.symm.trans hn')
      cases hp.symm.trans hp'
    · exact honly t' ⟨ht', e', hn', hp'⟩

end ends

namespace Registry

variable {r : Registry} {o : Traversal} (ho : o.imports = true)

include ho

/-! ### What the scans answer -/

/-- The table of all classes shows every class as it is found. -/
theorem get?_classes (n : String) : (r.classes o.imports).get? n = r.class? n := by
  rw [ho]
  exact r.get?_aggregate Schema.classes n

/-- The roots are the classes that name no parent. -/
theorem mem_classRoots_iff {n : String} : n ∈ r.classRoots o ↔ r.classParents o n = .ok [] := by
  unfold classRoots classParents
  rw [Table.mem_keysOf_filter fun e => (o.above e).isEmpty]
  simp only [get?_classes ho, List.isEmpty_iff]
  cases r.class? n <;> simp

/-- The leaves are the classes that no class names. -/
theorem mem_classLeaves_iff {n : String} : n ∈ r.classLeaves o ↔ r.classChildren o n = .ok [] := by
  have hnamed : n ∉ (r.classes o.imports).values.flatMap o.above ↔
      below o n (r.classes o.imports) = [] := by
    simp only [List.eq_nil_iff_forall_not_mem, mem_below_iff, List.mem_flatMap,
      Table.mem_values_iff]
    grind
  unfold classLeaves classChildren
  simp only [List.mem_filter, decide_eq_true_eq, hnamed, Table.mem_keys_iff, get?_classes ho]
  cases r.class? n <;> simp

/-! ### Roots and leaves of a class -/

/-- Among the classes above a class is a root. -/
theorem exists_root {name : String} {names : List String} (hreflexive : o.reflexive = true)
    (hnames : r.classAncestors o name = .ok names) : ∃ n ∈ names, n ∈ r.classRoots o := by
  unfold classAncestors at hnames
  rw [hreflexive] at hnames
  obtain ⟨n, hn, hend⟩ := Hierarchy.exists_end_of_ancestors hnames
  exact ⟨n, hn, (mem_classRoots_iff ho).2 hend⟩

/-- Among the classes below a class is a leaf. -/
theorem exists_leaf {name : String} {names : List String} (hreflexive : o.reflexive = true)
    (hnames : r.classDescendants o name = .ok names) : ∃ n ∈ names, n ∈ r.classLeaves o := by
  unfold classDescendants at hnames
  rw [hreflexive] at hnames
  obtain ⟨n, hn, hend⟩ := Hierarchy.exists_end_of_ancestors hnames
  exact ⟨n, hn, (mem_classLeaves_iff ho).2 hend⟩

/-- Among the classes above a class is one root at most, if parents alone count. -/
theorem existsUnique_root {name : String} {names : List String} (hreflexive : o.reflexive = true)
    (hisA : o.isA = true) (hmixins : o.mixins = false)
    (hnames : r.classAncestors o name = .ok names) : ∃! n, n ∈ names ∧ n ∈ r.classRoots o := by
  obtain ⟨line, hline, rfl⟩ := (classAncestors_eq_ok_iff hisA hmixins).1 hnames
  have htop : ∀ n, n ∈ r.classRoots o ↔
      ∃ c, r.class? n = some c ∧ Inheriting.parent c = none := by
    intro n
    have habove : ∀ c : ClassDef, o.above c = (Inheriting.parent c).toList := by
      intro c
      simp [Traversal.above, hisA, hmixins]
    rw [mem_classRoots_iff ho]
    unfold classParents
    cases r.class? n <;> simp [habove]
  simp only [hreflexive, if_true, htop]
  exact hline.existsUnique_top

omit ho

/-- **Every hierarchy of classes has roots and leaves**, whichever edges are followed. Where the
classes above a class can be told, a root is among them, and no other if parents are followed and
mixins are not. Where the classes below a class can be told, a leaf is among them. A class is a leaf
exactly if it is known and nothing is directly below it. -/
theorem roots_and_leaves (r : Registry) (o : Traversal) (ho : o.imports = true)
    (hreflexive : o.reflexive = true) :
    (∀ name names, r.classAncestors o name = .ok names →
      (∃ n ∈ names, n ∈ r.classRoots o) ∧
      (o.isA = true → o.mixins = false → ∃! n, n ∈ names ∧ n ∈ r.classRoots o)) ∧
    (∀ name names, r.classDescendants o name = .ok names → ∃ n ∈ names, n ∈ r.classLeaves o) ∧
    ∀ name, name ∈ r.classLeaves o ↔ r.classChildren o name = .ok [] :=
  ⟨fun _ _ hnames => ⟨exists_root ho hreflexive hnames, fun hisA hmixins =>
      existsUnique_root ho hreflexive hisA hmixins hnames⟩,
    fun _ _ => exists_leaf ho hreflexive, fun _ => mem_classLeaves_iff ho⟩

theorem roots_and_leaves_colours :
    colours.classRoots {} = ["Thing", "Bright"] ∧ colours.classLeaves {} = ["Rose"] ∧
    (∃ n ∈ ["Rose", "Red", "Thing", "Bright"], n ∈ colours.classRoots {}) ∧
    (∃! n, n ∈ ["Rose", "Red", "Thing"] ∧ n ∈ colours.classRoots { mixins := false }) ∧
    (∃ n ∈ ["Bright", "Red", "Rose"], n ∈ colours.classLeaves {}) ∧
    ("Rose" ∈ colours.classLeaves {} ↔ colours.classChildren {} "Rose" = .ok []) := by
  obtain ⟨hroot, hleaf, hchildren⟩ := roots_and_leaves colours {} rfl rfl
  obtain ⟨honly, -, -⟩ := roots_and_leaves colours { mixins := false } rfl rfl
  exact ⟨rfl, rfl, (hroot "Rose" _ rfl).1, (honly "Rose" _ rfl).2 rfl rfl, hleaf "Bright" _ rfl,
    hchildren "Rose"⟩

end Registry

end SlotFrame
