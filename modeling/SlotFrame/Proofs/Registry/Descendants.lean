import SlotFrame.Proofs.Registry.ClassSlots

/-! # Classes below a class

A class is searched for upwards through what it names as its parents, and downwards through the
table of all classes, among those that name it. Both look at a class as it is found, so a step down
is a step up the other way round, provided that the upper class is known. Where all that stands
above a class can be told, every step up from it ends at a known class, and so the two searches meet
each other.

Main statements: `Registry.parent_classesDown_iff`, `Registry.ascends_classesDown_iff` and
`Registry.mem_classDescendants_iff`. -/

namespace SlotFrame

/-- The entries that a scan of a table keeps are found in the table. -/
theorem Table.mem_keysOf_filter {α : Type} {t : Table α} (p : α → Bool) {n : String} :
    n ∈ keysOf (t.entries.filter fun e => p e.2) ↔ ∃ e, t.get? n = some e ∧ p e = true := by
  unfold keysOf
  simp only [List.mem_map, List.mem_filter]
  constructor
  · rintro ⟨e, ⟨he, hp⟩, rfl⟩
    exact ⟨e.2, lookupKey_of_mem t.nodup he, hp⟩
  · rintro ⟨e, he, hp⟩
    exact ⟨(n, e), ⟨mem_of_lookupKey he, hp⟩, rfl⟩

namespace Registry

variable {r : Registry} {o : Traversal}

/-! ### Steps up and down -/

theorem mem_below_iff {α : Type} [Inheriting α] {name n : String} {t : Table α} :
    n ∈ below o name t ↔ ∃ e, t.get? n = some e ∧ name ∈ o.above e := by
  unfold below
  rw [Table.mem_keysOf_filter fun e => (o.above e).contains name]
  simp only [List.contains_iff_mem]

/-- A step up leads to what a class names as its parents. -/
theorem parent_classesUp_iff {c p : String} :
    (r.classesUp o).above.Parent c p ↔ ∃ k, r.class? c = some k ∧ p ∈ o.above k := by
  show (∃ names, r.classParents o c = .ok names ∧ p ∈ names) ↔ _
  unfold classParents
  cases r.class? c with
  | some k => simp
  | none => simp

/-- A step down leads from a known class to the classes that name it as a parent. -/
theorem parent_classesDown_iff (ho : o.imports = true) {p c : String} :
    (r.classesDown o).above.Parent p c ↔
      (∃ k, r.class? p = some k) ∧ (r.classesUp o).above.Parent c p := by
  have hget : ∀ n, (r.classes true).get? n = r.class? n := r.get?_aggregate Schema.classes
  rw [parent_classesUp_iff]
  show (∃ names, r.classChildren o p = .ok names ∧ c ∈ names) ↔ _
  unfold classChildren
  rw [ho]
  cases r.class? p with
  | some k => simp [mem_below_iff, hget]
  | none => simp

/-! ### Ways up and down -/

/-- All that a class leads to upwards is known where it can be told. -/
theorem class?_of_reaches {c p : String} {names : List String}
    (hc : r.classAncestors o c = .ok names) (hp : (r.classesUp o).above.Reaches c p) :
    ∃ k, r.class? p = some k := by
  obtain ⟨⟨parents, hparents⟩, _⟩ :=
    (Hierarchy.exists_ancestors_iff (r.sized_classesUp o)).1 ⟨names, hc⟩ p hp
  exact r.class?_of_classParents hparents

/-- A way down is a way up the other way round. -/
theorem ascends_classesDown_iff (ho : o.imports = true) {a b : String} {names : List String}
    (hb : r.classAncestors o b = .ok names) :
    (r.classesDown o).above.Ascends a b ↔ (r.classesUp o).above.Ascends b a := by
  constructor
  · intro h
    clear hb
    induction h with
    | single hstep => exact ((parent_classesDown_iff ho).1 hstep).2.ascends
    | tail _ hstep ih => exact .head ((parent_classesDown_iff ho).1 hstep).2 ih
  · intro h
    induction h with
    | single hstep =>
      have hknown := class?_of_reaches hb hstep.ascends.reaches
      exact ((parent_classesDown_iff ho).2 ⟨hknown, hstep⟩).ascends
    | tail hway hstep ih =>
      have hknown := class?_of_reaches hb (Above.Ascends.reaches (.tail hway hstep))
      exact .head ((parent_classesDown_iff ho).2 ⟨hknown, hstep⟩) ih

/-- **Ancestors and descendants are dual.** Where the classes above a class and those below another
can be told, the one is below the other exactly if the other is above the one, whichever edges are
followed and whether or not a class counts as its own. -/
theorem mem_classDescendants_iff (ho : o.imports = true) {a b : String} {above below : List String}
    (hb : r.classAncestors o b = .ok above) (ha : r.classDescendants o a = .ok below) :
    b ∈ below ↔ a ∈ above := by
  have hbelow : b ∈ below ↔ _ := Hierarchy.mem_ancestors_iff ha
  have habove : a ∈ above ↔ _ := Hierarchy.mem_ancestors_iff hb
  rw [hbelow, habove, ascends_classesDown_iff ho hb, eq_comm]

/-- Two documents of which the newer one declares the red things anew, below the bright ones. -/
def colours : Registry :=
  (Registry.ofSchema { name := "p", classes := Table.ofList [
    ("Thing", {}), ("Red", { isA := some "Thing" }), ("Rose", { isA := some "Red" })] }).insert
    "x.json" { classes := Table.ofList [
      ("Bright", {}), ("Red", { isA := some "Thing", mixins := ["Bright"] })] }
    (by decide)

theorem mem_classDescendants_iff_colours :
    colours.classAncestors {} "Rose" = .ok ["Rose", "Red", "Thing", "Bright"] ∧
    colours.classDescendants {} "Bright" = .ok ["Bright", "Red", "Rose"] ∧
    ("Rose" ∈ ["Bright", "Red", "Rose"] ↔ "Bright" ∈ ["Rose", "Red", "Thing", "Bright"]) ∧
    colours.classAncestors { mixins := false, reflexive := false } "Rose" =
      .ok ["Red", "Thing"] ∧
    colours.classDescendants { mixins := false, reflexive := false } "Bright" = .ok [] ∧
    ("Rose" ∈ ([] : List String) ↔ "Bright" ∈ ["Red", "Thing"]) := by
  have habove : colours.classAncestors {} "Rose" = .ok ["Rose", "Red", "Thing", "Bright"] := rfl
  have hbelow : colours.classDescendants {} "Bright" = .ok ["Bright", "Red", "Rose"] := rfl
  have habove' : colours.classAncestors { mixins := false, reflexive := false } "Rose" =
      .ok ["Red", "Thing"] := rfl
  have hbelow' : colours.classDescendants { mixins := false, reflexive := false } "Bright" =
      .ok [] := rfl
  exact ⟨habove, hbelow, mem_classDescendants_iff rfl habove hbelow, habove', hbelow',
    mem_classDescendants_iff rfl habove' hbelow'⟩

end Registry

end SlotFrame
