import Mathlib.Data.List.TakeWhile
import SlotFrame.Hierarchy.Closure

/-! # What a closure passes through

A closure that comes to an end has asked what stands above every name that it answers, so each of
these names is known to the hierarchy.

Main statement: `Hierarchy.above_of_mem_ancestors`. -/

namespace SlotFrame

theorem mem_addNames {x : String} {found names : List String} :
    x ∈ addNames found names ↔ x ∈ found ∨ x ∈ names := by
  unfold addNames
  induction names generalizing found with
  | nil => simp
  | cons n names ih =>
    rw [List.foldl_cons, ih]
    by_cases h : n ∈ found
    · rw [if_pos h, List.mem_cons]
      constructor
      · rintro (hx | hx)
        · exact Or.inl hx
        · exact Or.inr (Or.inr hx)
      · rintro (hx | rfl | hx)
        · exact Or.inl hx
        · exact Or.inl h
        · exact Or.inr hx
    · rw [if_neg h, List.mem_append, List.mem_singleton, List.mem_cons, or_assoc]

/-! ### Searches that come to an end -/

theorem closureFrom_of_dropWhile_nil {above : Above} {limit : Nat}
    {visited found todo : List String} (h : todo.dropWhile (· ∈ visited) = []) :
    closureFrom above limit visited found todo = pure found := by
  unfold closureFrom
  rw [h]

theorem closureFrom_of_dropWhile_cons {above : Above} {limit : Nat}
    {visited found todo rest : List String} {n : String}
    (h : todo.dropWhile (· ∈ visited) = n :: rest) :
    closureFrom above (limit + 1) visited found todo = (do
      let names ← Bounded.lift (above n)
      let fresh := names.filter (· ∉ n :: visited)
      closureFrom above limit (n :: visited) (addNames found fresh) (fresh.reverse ++ rest)) := by
  conv =>
    lhs
    unfold closureFrom
  rw [h]

theorem dropWhile_of_not_mem {todo visited : List String} {n : String} (h : n ∉ visited) :
    (n :: todo).dropWhile (· ∈ visited) = n :: todo :=
  List.dropWhile_cons_of_neg (by simpa using h)

theorem mem_of_dropWhile_nil {todo visited : List String}
    (h : todo.dropWhile (· ∈ visited) = []) {x : String} (hx : x ∈ todo) : x ∈ visited := by
  rw [List.dropWhile_eq_nil_iff] at h
  simpa using h x hx

theorem notMem_of_dropWhile_cons {todo visited rest : List String} {n : String}
    (h : todo.dropWhile (· ∈ visited) = n :: rest) : n ∉ visited := by
  have hhead := List.head?_dropWhile_not (· ∈ visited) todo
  rw [h] at hhead
  simpa using hhead

theorem mem_of_dropWhile_cons {todo visited rest : List String} {n : String}
    (h : todo.dropWhile (· ∈ visited) = n :: rest) {x : String} (hx : x ∈ todo) :
    x ∈ n :: visited ∨ x ∈ rest := by
  have hsplit : todo.takeWhile (· ∈ visited) ++ n :: rest = todo := by
    rw [← h]
    exact List.takeWhile_append_dropWhile
  rw [← hsplit, List.mem_append, List.mem_cons] at hx
  rcases hx with hx | rfl | hx
  · left
    have hv : x ∈ visited := by simpa using List.mem_takeWhile_imp hx
    exact List.mem_cons_of_mem _ hv
  · left
    exact List.mem_cons_self
  · right
    exact hx

theorem above_of_dropWhile_nil {above : Above} {limit : Nat}
    {visited found todo result : List String} (hd : todo.dropWhile (· ∈ visited) = [])
    (h : (closureFrom above limit visited found todo).run = some (.ok result))
    (hvisited : ∀ n ∈ visited, ∃ names, above n = .ok names)
    (hfound : ∀ n ∈ found, n ∈ visited ∨ n ∈ todo) :
    ∀ n ∈ result, ∃ names, above n = .ok names := by
  rw [closureFrom_of_dropWhile_nil hd] at h
  have hr : found = result := by simpa using h
  intro n hn
  rcases hfound n (hr ▸ hn) with hv | ht
  · exact hvisited n hv
  · exact hvisited n (mem_of_dropWhile_nil hd ht)

/-- Whatever is found is visited or waits to be, and whatever is visited is known; at the end
nothing waits. -/
theorem above_of_mem_closureFrom {above : Above} {limit : Nat}
    {visited found todo result : List String}
    (h : (closureFrom above limit visited found todo).run = some (.ok result))
    (hvisited : ∀ n ∈ visited, ∃ names, above n = .ok names)
    (hfound : ∀ n ∈ found, n ∈ visited ∨ n ∈ todo) :
    ∀ n ∈ result, ∃ names, above n = .ok names := by
  induction limit generalizing visited found todo with
  | zero =>
    cases hd : todo.dropWhile (· ∈ visited) with
    | nil => exact above_of_dropWhile_nil hd h hvisited hfound
    | cons n rest =>
      unfold closureFrom at h
      rw [hd] at h
      simp [Bounded.exhausted] at h
  | succ limit ih =>
    cases hd : todo.dropWhile (· ∈ visited) with
    | nil => exact above_of_dropWhile_nil hd h hvisited hfound
    | cons n rest =>
      rw [closureFrom_of_dropWhile_cons hd] at h
      cases hn : above n with
      | error f =>
        rw [hn] at h
        cases h
      | ok names =>
        rw [hn] at h
        refine ih h ?_ ?_
        · intro x hx
          rcases List.mem_cons.1 hx with rfl | hx
          · exact ⟨names, hn⟩
          · exact hvisited x hx
        · intro x hx
          rw [List.mem_append, List.mem_reverse, ← or_assoc]
          rcases mem_addNames.1 hx with hx | hx
          · rcases hfound x hx with hv | ht
            · exact Or.inl (Or.inl (List.mem_cons_of_mem _ hv))
            · rcases mem_of_dropWhile_cons hd ht with hv | hr
              · exact Or.inl (Or.inl hv)
              · exact Or.inr hr
          · exact Or.inl (Or.inr hx)

namespace Hierarchy

variable (h : Hierarchy)

theorem settle_eq_ok {α : Type} {search : Bounded α} {a : α} (hs : settle search = .ok a) :
    search.run = some (.ok a) := by
  unfold settle at hs
  split at hs
  · rename_i r hr
    rw [hr, hs]
  · cases hs

/-- Every name above another is known to the hierarchy. -/
theorem above_of_mem_ancestors {start : String} {reflexive : Bool} {names : List String}
    (hn : h.ancestors start reflexive = .ok names) :
    ∀ n ∈ names, ∃ parents, h.above n = .ok parents := by
  unfold ancestors at hn
  cases ha : h.acyclic start with
  | error f =>
    rw [ha] at hn
    cases hn
  | ok u =>
    rw [ha] at hn
    refine above_of_mem_closureFrom (settle_eq_ok hn) ?_ ?_
    · intro n hmem
      cases hmem
    · intro n hmem
      right
      cases reflexive with
      | true => exact hmem
      | false => cases hmem

end Hierarchy

end SlotFrame
