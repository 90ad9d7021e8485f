import SlotFrame.Proofs.Hierarchy.Outcomes
import SlotFrame.Proofs.Registry.ClassSlots

/-! # The recursive order of a closure

Exploring a name visits it unless it is visited already: what stands directly above it is found, in
order, and then explored from last to first. A closure keeps a stack instead, on which a name may
wait several times; what lies on top of it is explored before the rest is looked at, so both find
the same names in the same order.

Main definitions: `Exploration`, `explore`, `explored?`, `Above.declared`.

Main statements: `explore_of_closureFrom` (the top of the stack is explored first) and
`closure?_explored` (a closure is an exploration). -/

namespace SlotFrame

/-- What an exploration has visited, and what it has found. -/
structure Exploration where
  visited : List String
  found : List String

namespace Exploration

/-- The names above a name that are not visited once it is. -/
def fresh (s : Exploration) (n : String) (names : List String) : List String :=
  names.filter (· ∉ n :: s.visited)

/-- Visits a name and finds what stands above it, as far as that is not visited. -/
def visit (s : Exploration) (n : String) (names : List String) : Exploration :=
  ⟨n :: s.visited, addNames s.found (s.fresh n names)⟩

end Exploration

/-- Visits a name, unless it is visited, and explores what stands above it from last to first. -/
def explore (above : Above) : Nat → Exploration → String → Bounded Exploration
  | limit, s, n =>
    if n ∈ s.visited then return s
    else match limit with
      | 0 => Bounded.exhausted
      | limit + 1 => do
        let names ← Bounded.lift (above n)
        (s.fresh n names).reverse.foldlM (explore above limit) (s.visit n names)

/-- The names that an exploration finds, with or without its start. -/
def explored? (limit : Nat) (above : Above) (start : String) (reflexive : Bool) :
    Bounded (List String) :=
  Exploration.found <$> explore above limit ⟨[], if reflexive then [start] else []⟩ start

/-! ### What definitions declare -/

/-- What stands above names by their definitions: the parent first, then the mixins as they are
declared. Nothing can be told about a name without a definition. -/
def Above.declared {α : Type} [Inheriting α] (kind : ElementKind) (o : Traversal)
    (definition? : String → Option α) : Above :=
  fun n => match definition? n with
    | some e => .ok ((if o.isA then (Inheriting.parent e).toList else []) ++
        if o.mixins then Inheriting.mixins e else [])
    | none => .error (.unresolved kind n none)

namespace Registry

theorem above_classesUp (r : Registry) (o : Traversal) :
    (r.classesUp o).above = .declared .classDef o r.class? := by
  funext c
  show r.classParents o c = _
  unfold classParents Above.declared
  cases r.class? c <;> rfl

theorem above_slotsUpFrom (r : Registry) (o : Traversal) (name : String) (own : SlotDef) :
    (r.slotsUpFrom o name own).above =
      .declared .slotDef o fun n => if n = name then some own else r.slot? n := by
  funext n
  show (if n = name then _ else r.slotParents o n) = _
  unfold slotParents Above.declared
  by_cases hn : n = name
  · simp only [if_pos hn]
    rfl
  · simp only [if_neg hn]
    cases r.slot? n <;> rfl

end Registry

/-! ### Explorations step by step -/

section steps

variable {above : Above} {limit : Nat} {s : Exploration} {n : String}

theorem explore_of_mem (h : n ∈ s.visited) : explore above limit s n = pure s := by
  unfold explore
  rw [if_pos h]

theorem run_explore_succ (h : n ∉ s.visited) : (explore above (limit + 1) s n).run =
    match above n with
      | .ok names => ((s.fresh n names).reverse.foldlM (explore above limit) (s.visit n names)).run
      | .error f => some (.error f) := by
  conv =>
    lhs
    unfold explore
  rw [if_neg h]
  dsimp only
  rw [Bounded.run_lift_bind]
  cases above n <;> rfl

theorem closureFrom_cons_of_mem {visited found todo : List String} (h : n ∈ visited) :
    closureFrom above limit visited found (n :: todo) =
      closureFrom above limit visited found todo := by
  unfold closureFrom
  rw [List.dropWhile_cons_of_pos (by simpa using h)]

end steps

/-- What lies on top of the stack is explored, with the outcome of the closure if it fails; else the
closure goes on with the rest where the exploration has come to. -/
theorem explore_of_closureFrom {above : Above} {limit : Nat} {s : Exploration}
    {now later : List String} {r : Result (List String)}
    (h : (closureFrom above limit s.visited s.found (now ++ later)).run = some r) {enough : Nat}
    (henough : limit ≤ enough) :
    (∃ f, r = .error f ∧ (now.foldlM (explore above enough) s).run = some (.error f)) ∨
      ∃ s' limit', (now.foldlM (explore above enough) s).run = some (.ok s') ∧ limit' ≤ limit ∧
        (closureFrom above limit' s'.visited s'.found later).run = some r := by
  induction limit using Nat.strongRecOn generalizing s now later enough with
  | ind limit ih =>
    induction now generalizing s with
    | nil => exact .inr ⟨s, limit, rfl, Nat.le_refl limit, h⟩
    | cons n now ihnow =>
      rw [List.cons_append] at h
      rw [List.foldlM_cons, Bounded.run_bind]
      by_cases hn : n ∈ s.visited
      · rw [closureFrom_cons_of_mem hn] at h
        rw [explore_of_mem hn]
        exact ihnow h
      have hd : (n :: (now ++ later)).dropWhile (· ∈ s.visited) = n :: (now ++ later) :=
        dropWhile_of_not_mem hn
      cases limit with
      | zero =>
        unfold closureFrom at h
        rw [hd] at h
        cases h
      | succ limit =>
        obtain ⟨more, rfl⟩ := Nat.exists_eq_add_of_lt henough
        rw [closureFrom_of_dropWhile_cons hd, Bounded.run_lift_bind] at h
        rw [run_explore_succ hn]
        cases ha : above n with
        | error f =>
          rw [ha] at h
          exact .inl ⟨f, (Option.some.inj h).symm, rfl⟩
        | ok names =>
          rw [ha] at h
          have hvisit : (closureFrom above limit (s.visit n names).visited (s.visit n names).found
              ((s.fresh n names).reverse ++ (now ++ later))).run = some r := h
          -- First come the names above, then the others on top of the stack.
          rcases ih limit (Nat.lt_succ_self limit) hvisit (Nat.le_add_right limit more) with
            ⟨f, rfl, hbelow⟩ | ⟨s₁, limit₁, hbelow, hle₁, hrest⟩
          · dsimp only
            rw [hbelow]
            exact .inl ⟨f, rfl, rfl⟩
          · dsimp only
            rw [hbelow]
            have henough₁ : limit₁ ≤ limit + more + 1 := by omega
            rcases ih limit₁ (Nat.lt_succ_of_le hle₁) hrest henough₁ with
              hfault | ⟨s₂, limit₂, hnow, hle₂, hlater⟩
            · exact .inl hfault
            · exact .inr ⟨s₂, limit₂, hnow, by omega, hlater⟩

/-- A closure that has come to an end is an exploration. -/
theorem run_explored? {above : Above} {limit : Nat} {start : String} {reflexive : Bool}
    {r : Result (List String)} (h : (closure? limit above start reflexive).run = some r)
    {enough : Nat} (henough : limit ≤ enough) :
    (explored? enough above start reflexive).run = some r := by
  have hstart : (closureFrom above limit [] (if reflexive then [start] else [])
      ([start] ++ [])).run = some r := h
  have hsingle : [start].foldlM (explore above enough)
      ⟨[], if reflexive then [start] else []⟩ = explore above enough
        ⟨[], if reflexive then [start] else []⟩ start := by
    rw [List.foldlM_cons]
    exact bind_pure _
  unfold explored?
  rw [map_eq_bind_pure_comp, Bounded.run_bind, ← hsingle]
  rcases explore_of_closureFrom (s := ⟨[], if reflexive then [start] else []⟩) hstart henough with
    ⟨f, rfl, hrun⟩ | ⟨s, limit', hrun, -, hrest⟩
  · rw [hrun]
  · rw [hrun]
    rw [closureFrom_of_dropWhile_nil rfl] at hrest
    exact hrest

/-- **A closure finds names in the order of the recursion.** From a name that reaches finitely many
others a closure and an exploration come to the same outcome within every limit above their number,
a list of names if all that is reached is known. Every hierarchy that is large enough answers it; so
do those of the classes and of the slots of a registry, in which a parent stands before the
mixins. -/
theorem closure?_explored {above : Above} {start : String} (hfinite : (above.reach start).Finite)
    (reflexive : Bool) : ∃ outcome : Result (List String),
      (∀ limit, (above.reach start).ncard < limit →
        (closure? limit above start reflexive).run = some outcome ∧
          (explored? limit above start reflexive).run = some outcome) ∧
      ((∀ n, above.Reaches start n → ∃ parents, above n = .ok parents) →
        ∃ names, outcome = .ok names) ∧
      (∀ h : Hierarchy, h.above = above → h.Sized → h.closure start reflexive = outcome) ∧
      (∀ (r : Registry) (o : Traversal), above = .declared .classDef o r.class? →
        (r.classesUp o).closure start reflexive = outcome) ∧
      ∀ (r : Registry) (o : Traversal) (name : String) (own : SlotDef),
        above = .declared .slotDef o (fun n => if n = name then some own else r.slot? n) →
          (r.slotsUpFrom o name own).closure start reflexive = outcome := by
  obtain ⟨outcome, hlimit⟩ := exists_run_closure? hfinite reflexive
  have hrun := hlimit _ (Nat.lt_succ_self _)
  have hanswer : ∀ h : Hierarchy, h.above = above → h.Sized →
      h.closure start reflexive = outcome := by
    rintro h rfl hs
    exact hs.closure_eq hrun
  refine ⟨outcome, ?_, exists_names_of_run_closure? hrun, hanswer, ?_, ?_⟩
  · intro limit hl
    exact ⟨hlimit limit hl, run_explored? (hlimit limit hl) (Nat.le_refl limit)⟩
  · intro r o hdeclared
    exact hanswer _ ((r.above_classesUp o).trans hdeclared.symm) (r.sized_classesUp o)
  · intro r o name own hdeclared
    exact hanswer _ ((r.above_slotsUpFrom o name own).trans hdeclared.symm)
      (r.sized_slotsUpFrom o name own)

/-- A class with a parent and a mixin; what stands above the parent leads back to the class. -/
def mixedClasses : Registry := .ofSchema
  { name := "p"
    classes := Table.ofList
      [("C1", { isA := some "C2", mixins := ["M1"] }), ("C2", { isA := some "C3" }), ("M1", {}),
        ("C3", { mixins := ["C1"] })] }

/-- The mixin is explored before what stands above the parent. -/
theorem closure?_explored_mixedClasses :
    (Above.reach (.declared .classDef {} mixedClasses.class?) "C1").Finite ∧
      (explored? 5 (.declared .classDef {} mixedClasses.class?) "C1" true).run =
        some (.ok ["C1", "C2", "M1", "C3"]) ∧
      (mixedClasses.classesUp {}).closure "C1" true = .ok ["C1", "C2", "M1", "C3"] := by
  have hfinite : (Above.reach (.declared .classDef {} mixedClasses.class?) "C1").Finite :=
    Above.finite_reach ["C1", "C2", "M1", "C3"] (by decide) (by decide +kernel)
  have hrun : (closure? 5 (.declared .classDef {} mixedClasses.class?) "C1" true).run =
      some (.ok ["C1", "C2", "M1", "C3"]) := by
    decide +kernel
  obtain ⟨outcome, hlimit, -, -, hclasses, -⟩ := closure?_explored hfinite true
  have houtcome := (steady_closure? _ "C1" true).unique
    (hlimit _ (Nat.lt_succ_self _)).1 hrun
  refine ⟨hfinite, run_explored? hrun (Nat.le_refl 5), ?_⟩
  rw [← houtcome]
  exact hclasses mixedClasses {} rfl

end SlotFrame
