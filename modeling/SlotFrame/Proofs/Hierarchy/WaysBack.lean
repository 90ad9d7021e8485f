import Mathlib.Data.List.Chain
import SlotFrame.Proofs.Hierarchy.Reachability

/-! # Ways upwards and back

A way upwards goes from name to name, each standing directly above the one before, and meets none
twice. Where it comes to a name again it leads back: from the first place of that name on it is a
circle.

Main definitions: `Above.Climb`, `Above.WayBack`.

Main statements: `Above.Climb.snoc` and `Above.Climb.wayBack` (how a way upwards goes on). -/

namespace SlotFrame.Above

variable {above : Above}

/-- A way upwards that meets no name twice, over names that a name reaches. -/
structure Climb (above : Above) (start : String) (path : List String) : Prop where
  once : path.Nodup
  steps : path.IsChain above.Parent
  reached : ∀ n ∈ path, above.Reaches start n

/-- A way upwards that ends where it began and meets no other name twice, over names that a name
reaches. -/
structure WayBack (above : Above) (start : String) (path : List String) : Prop where
  long : 2 ≤ path.length
  closes : path.head? = path.getLast?
  once : path.dropLast.Nodup
  steps : path.IsChain above.Parent
  reached : ∀ n ∈ path, above.Reaches start n

/-- From the first place of a name on, a list begins with that name. -/
theorem exists_dropWhile_ne {p : String} {path : List String} (hmem : p ∈ path) :
    ∃ rest, path.dropWhile (· ≠ p) = p :: rest := by
  cases hd : path.dropWhile (· ≠ p) with
  | nil =>
    rw [List.dropWhile_eq_nil_iff] at hd
    have hne : p ≠ p := by simpa using hd p hmem
    exact absurd rfl hne
  | cons x rest =>
    have hhead := List.head?_dropWhile_not (· ≠ p) path
    rw [hd] at hhead
    have hx : x = p := by simpa using hhead
    rw [hx]
    exact ⟨rest, rfl⟩

theorem climb_single (above : Above) (start : String) : above.Climb start [start] where
  once := List.nodup_singleton start
  steps := List.isChain_singleton start
  reached n hn := by
    rw [List.mem_singleton.1 hn]
    exact .refl above start

namespace Climb

variable {start n p : String} {path : List String} (h : above.Climb start (path ++ [n]))
  (hp : above.Parent n p)

include h hp

theorem steps_append {front back : List String} (hsplit : front ++ back = path ++ [n])
    (hback : back ≠ []) : (back ++ [p]).IsChain above.Parent := by
  have hsteps := h.steps
  rw [← hsplit, List.isChain_append] at hsteps
  have hlast : back.getLast? = some n := by
    rw [← List.getLast?_append_of_ne_nil front hback, hsplit, List.getLast?_concat]
  refine List.isChain_append.2 ⟨hsteps.2.1, List.isChain_singleton p, ?_⟩
  intro x hx y hy
  rw [hlast, Option.mem_some_iff] at hx
  rw [List.head?_singleton, Option.mem_some_iff] at hy
  rw [← hx, ← hy]
  exact hp

/-- A way upwards goes on to a name that it has not met. -/
theorem snoc (hnew : p ∉ path ++ [n]) : above.Climb start (path ++ [n] ++ [p]) where
  once := by
    rw [List.nodup_append_comm]
    exact List.nodup_cons.2 ⟨hnew, h.once⟩
  steps := h.steps_append hp (List.nil_append _) (by simp)
  reached x hx := by
    rcases List.mem_append.1 hx with hx | hx
    · exact h.reached x hx
    · rw [List.mem_singleton.1 hx]
      exact (h.reached n (List.mem_append_right path (List.mem_singleton_self n))).step hp

/-- A way upwards that comes to a name again leads back from its first place. -/
theorem wayBack (hmem : p ∈ path ++ [n]) :
    above.WayBack start ((path ++ [n]).dropWhile (· ≠ p) ++ [p]) := by
  have hsplit := List.takeWhile_append_dropWhile (p := fun x => decide (x ≠ p)) (l := path ++ [n])
  have hsuffix : ((path ++ [n]).dropWhile (· ≠ p)).Sublist (path ++ [n]) :=
    List.dropWhile_sublist _
  obtain ⟨rest, hrest⟩ := exists_dropWhile_ne hmem
  rw [hrest] at hsplit hsuffix ⊢
  refine ⟨by simp, ?_, ?_, h.steps_append hp hsplit (List.cons_ne_nil p rest), ?_⟩
  · rw [List.getLast?_concat]
    rfl
  · rw [List.dropLast_concat]
    exact h.once.sublist hsuffix
  · intro x hx
    rcases List.mem_append.1 hx with hx | hx
    · exact h.reached x (hsuffix.subset hx)
    · rw [List.mem_singleton.1 hx]
      exact h.reached p hmem

end Climb

/-- A way back leads from a name to itself. -/
theorem WayBack.exists_ascends {start : String} {path : List String}
    (h : above.WayBack start path) : ∃ n, above.Reaches start n ∧ above.Ascends n n := by
  obtain ⟨hlong, hcloses, -, hsteps, hreached⟩ := h
  rcases path with _ | ⟨n, _ | ⟨p, rest⟩⟩
  · simp at hlong
  · simp at hlong
  · obtain ⟨hp, hrest⟩ := List.isChain_cons_cons.1 hsteps
    have hlast : (p :: rest).getLast (List.cons_ne_nil p rest) = n := by
      rw [List.head?_cons, List.getLast?_cons_cons, List.getLast?_eq_some_getLast] at hcloses
      exact (Option.some.inj hcloses).symm
    have hback := List.relationReflTransGen_of_exists_isChain_cons rest hrest hlast
    exact ⟨n, hreached n List.mem_cons_self, Relation.TransGen.head' hp hback⟩

end SlotFrame.Above
