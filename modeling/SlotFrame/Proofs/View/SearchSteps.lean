import SlotFrame.Proofs.Registry.Documents
import SlotFrame.View.Imports

/-! # Searches for imports step by step

A step of a search passes over a reference that has been visited, or makes sure of its document and
puts the imports of that on top of what waits. A higher limit changes no search that has come to an
end, and one that meets finitely many references comes to an end: a step leaves fewer references
unvisited, or it leaves fewer waiting.

Main statements: `View.searchImports_mono`, `View.loadImportsWithin_mono` and
`View.exists_searchImports` (a search that meets finitely many references ends). -/

namespace SlotFrame.View

variable {W : Type} (source : Source (StateM W)) (cache : PrefixCache)

/-! ### One step -/

section Steps

variable (limit : Nat) {s : ImportSearch} (v : View) (w : W)

theorem run_searchImports_nil (h : s.pending = []) :
    (searchImports source cache (limit + 1) s v).run w = ((some (.ok ()), v), w) := by
  unfold searchImports
  rw [h]
  rfl

variable {i : String} {rest : List String}

theorem run_searchImports_visited (h : s.pending = i :: rest) (hi : i ∈ s.visited) :
    (searchImports source cache (limit + 1) s v).run w =
      (searchImports source cache limit { s with pending := rest } v).run w := by
  conv => lhs; unfold searchImports
  rw [h]
  dsimp only
  rw [if_pos hi]

theorem run_searchImports_unvisited (h : s.pending = i :: rest) (hi : i ∉ s.visited) :
    (searchImports source cache (limit + 1) s v).run w =
      match (v.ensureDocument source cache { s with pending := rest } i).run w with
      | ((.error f, v'), w') => ((some (.error f), v'), w')
      | ((.ok _, v'), w') => (searchImports source cache limit
          (ImportSearch.follow { s with pending := rest } i (v'.importsOf i)) v').run w' := by
  conv => lhs; unfold searchImports
  rw [h]
  dsimp only
  rw [if_neg hi, StateT.run_bind]
  cases (v.ensureDocument source cache { s with pending := rest } i).run w with
  | mk a w' =>
    obtain ⟨r, v'⟩ := a
    cases r <;> rfl

/-- A registered document is not loaded again. -/
theorem run_ensureDocument_of_contains {v : View} (h : v.registry.contains i = true) :
    (v.ensureDocument source cache s i).run w = ((.ok (), v), w) := by
  unfold ensureDocument
  rw [dif_pos h]
  rfl

/-- A document that is not registered yet is loaded, and registered beside those from before. -/
theorem run_ensureDocument_of_new {v : View} (h : ¬ v.registry.contains i = true) :
    (v.ensureDocument source cache s i).run w =
      match (v.loadImport source cache i
        ((s.askedBy.lookup i).bind v.registry.document?)).run w with
      | ((.error f, u), w') => ((.error f, u), w')
      | ((.ok d, u), w') => ((.ok (), u.replace (v.registry.insert i d h)), w') := by
  unfold ensureDocument
  rw [dif_neg h]
  dsimp only
  rw [StateT.run_bind]
  cases (v.loadImport source cache i
      ((s.askedBy.lookup i).bind v.registry.document?)).run w with
  | mk a w' =>
    obtain ⟨loaded, u⟩ := a
    cases loaded <;> rfl

end Steps

theorem importsOf_of_document? {v : View} {i : String} {d : Schema}
    (h : v.registry.document? i = some d) : v.importsOf i = d.imports := by
  unfold importsOf
  rw [h]
  rfl

theorem importsOf_key (v : View) : v.importsOf v.registry.key = v.primary.imports :=
  importsOf_of_document? v.registry.document?_key

/-! ### Limits -/

variable {source cache}

theorem searchImports_mono {limit limit' : Nat} (hle : limit ≤ limit') {s : ImportSearch}
    {v v' : View} {w w' : W} {r : Result Unit}
    (h : (searchImports source cache limit s v).run w = ((some r, v'), w')) :
    (searchImports source cache limit' s v).run w = ((some r, v'), w') := by
  induction limit generalizing limit' s v w with
  | zero => cases h
  | succ limit ih =>
    obtain ⟨limit', rfl⟩ : ∃ n, limit' = n + 1 := ⟨limit' - 1, by omega⟩
    have hle' : limit ≤ limit' := by omega
    cases hp : s.pending with
    | nil =>
      rw [run_searchImports_nil source cache limit v w hp] at h
      rw [run_searchImports_nil source cache limit' v w hp, h]
    | cons i rest =>
      by_cases hi : i ∈ s.visited
      · rw [run_searchImports_visited source cache limit v w hp hi] at h
        rw [run_searchImports_visited source cache limit' v w hp hi]
        exact ih hle' h
      · rw [run_searchImports_unvisited source cache limit v w hp hi] at h
        rw [run_searchImports_unvisited source cache limit' v w hp hi]
        cases he : (v.ensureDocument source cache { s with pending := rest } i).run w with
        | mk a w₁ =>
          obtain ⟨r₁, v₁⟩ := a
          rw [he] at h
          cases r₁ with
          | error f => exact h
          | ok _ => exact ih hle' h

theorem run_loadImportsWithin_of_loaded (limit : Nat) {v : View} (hv : v.loaded = true) (w : W) :
    (v.loadImportsWithin limit source cache).run w = ((some (.ok ()), v), w) := by
  unfold loadImportsWithin
  rw [hv, if_pos rfl]
  rfl

theorem run_loadImportsWithin (limit : Nat) {v : View} (hv : v.loaded = false) (w : W) :
    (v.loadImportsWithin limit source cache).run w =
      match (searchImports source cache limit v.importSearch v).run w with
      | ((some (.ok _), v'), w') => ((some (.ok ()), v'.tagDocuments), w')
      | ((r, v'), w') => ((r, v'), w') := by
  unfold loadImportsWithin
  rw [hv, if_neg Bool.false_ne_true, StateT.run_bind]
  cases (searchImports source cache limit v.importSearch v).run w with
  | mk a w' =>
    obtain ⟨r, v'⟩ := a
    match r with
    | none => rfl
    | some (.error f) => rfl
    | some (.ok _) => rfl

/-- Imports that are loaded have been searched, and their documents tagged. -/
theorem searchImports_of_loadImportsWithin {limit : Nat} {v v' : View} {w w' : W}
    (hv : v.loaded = false)
    (h : (v.loadImportsWithin limit source cache).run w = ((some (.ok ()), v'), w')) :
    ∃ v₁, (searchImports source cache limit v.importSearch v).run w =
      ((some (.ok ()), v₁), w') ∧ v' = v₁.tagDocuments := by
  rw [run_loadImportsWithin limit hv w] at h
  cases hs : (searchImports source cache limit v.importSearch v).run w with
  | mk a w₁ =>
    obtain ⟨r, v₁⟩ := a
    rw [hs] at h
    match r with
    | none => cases h
    | some (.error f) => cases h
    | some (.ok _) =>
      cases h
      exact ⟨v₁, rfl, rfl⟩

theorem loadImportsWithin_mono {limit limit' : Nat} (hle : limit ≤ limit') {v v' : View} {w w' : W}
    {r : Result Unit} (h : (v.loadImportsWithin limit source cache).run w = ((some r, v'), w')) :
    (v.loadImportsWithin limit' source cache).run w = ((some r, v'), w') := by
  cases hv : v.loaded with
  | true =>
    rw [run_loadImportsWithin_of_loaded limit hv w] at h
    rw [run_loadImportsWithin_of_loaded limit' hv w, h]
  | false =>
    rw [run_loadImportsWithin limit hv w] at h
    rw [run_loadImportsWithin limit' hv w]
    cases hs : (searchImports source cache limit v.importSearch v).run w with
    | mk a w₁ =>
      obtain ⟨r₁, v₁⟩ := a
      rw [hs] at h
      match r₁ with
      | none => cases h
      | some r₁ =>
        rw [searchImports_mono hle hs]
        exact h

/-! ### Termination -/

theorem mem_documents_of_importsOf {v : View} {reference i : String}
    (h : i ∈ v.importsOf reference) : ∃ d ∈ v.registry.documents true, i ∈ d.imports := by
  unfold importsOf at h
  cases hd : v.registry.document? reference with
  | none =>
    rw [hd] at h
    cases h
  | some d =>
    rw [hd] at h
    exact ⟨d, List.mem_map_of_mem (mem_of_lookupKey hd), h⟩

/-- The references of a list that a search has not visited. -/
def unvisited (all : List String) (s : ImportSearch) : List String := all.filter (· ∉ s.visited)

theorem unvisited_follow_lt {all : List String} {s : ImportSearch} {i : String} (hall : i ∈ all)
    (hi : i ∉ s.visited) (rest imports : List String) :
    (unvisited all (ImportSearch.follow { s with pending := rest } i imports)).length <
      (unvisited all s).length := by
  have hsub : unvisited all (ImportSearch.follow { s with pending := rest } i imports) =
      (unvisited all s).filter (· ≠ i) := by
    unfold unvisited ImportSearch.follow
    rw [List.filter_filter]
    apply List.filter_congr
    intro j _
    simp [List.mem_cons, not_or]
  rw [hsub, List.length_filter_lt_length_iff_exists]
  refine ⟨i, ?_, by simp⟩
  exact List.mem_filter.2 ⟨hall, by simpa using hi⟩

/-- A search that only ever meets references of a list ends. -/
theorem exists_searchImports (all : List String) (s : ImportSearch) (v : View) (w : W)
    (hpending : ∀ i ∈ s.pending, i ∈ all)
    (hall : ∀ limit, ∀ d ∈ ((searchImports source cache limit s v).run
      w).1.2.registry.documents true, ∀ i ∈ d.imports, i ∈ all) :
    ∃ limit r v' w', (searchImports source cache limit s v).run w = ((some r, v'), w') := by
  -- A visit leaves fewer references unvisited, and to pass over one leaves fewer waiting.
  induction hn : (unvisited all s).length using Nat.strongRecOn generalizing s v w with
  | ind n ih =>
    induction hp : s.pending generalizing s with
    | nil => exact ⟨1, _, _, _, run_searchImports_nil source cache 0 v w hp⟩
    | cons i rest ihp =>
      rw [hp] at hpending
      by_cases hi : i ∈ s.visited
      · have hstep := fun limit => run_searchImports_visited source cache limit v w hp hi
        have hrest := ihp { s with pending := rest }
          (fun j hj => hpending j (List.mem_cons_of_mem i hj))
          (fun limit => by rw [← hstep limit]; exact hall (limit + 1)) hn rfl
        obtain ⟨limit, r, v', w', h⟩ := hrest
        exact ⟨limit + 1, r, v', w', (hstep limit).trans h⟩
      · have hstep := fun limit => run_searchImports_unvisited source cache limit v w hp hi
        cases he : (v.ensureDocument source cache { s with pending := rest } i).run w with
        | mk a w₁ =>
          obtain ⟨r₁, v₁⟩ := a
          simp only [he] at hstep
          cases r₁ with
          | error f => exact ⟨1, _, _, _, hstep 0⟩
          | ok _ =>
            simp only at hstep
            have hall₁ : ∀ limit, ∀ d ∈ ((searchImports source cache limit
                (ImportSearch.follow { s with pending := rest } i (v₁.importsOf i)) v₁).run
                  w₁).1.2.registry.documents true, ∀ j ∈ d.imports, j ∈ all := by
              intro limit
              rw [← hstep limit]
              exact hall (limit + 1)
            have hfresh : ∀ j ∈ v₁.importsOf i, j ∈ all := by
              intro j hj
              obtain ⟨d, hd, hjd⟩ := mem_documents_of_importsOf hj
              exact hall₁ 0 d hd j hjd
            have hpending₁ : ∀ j ∈ (ImportSearch.follow { s with pending := rest } i
                (v₁.importsOf i)).pending, j ∈ all := by
              intro j hj
              rcases List.mem_append.1 hj with hj | hj
              · exact hfresh j (List.mem_filter.1 (List.mem_reverse.1 hj)).1
              · exact hpending j (List.mem_cons_of_mem i hj)
            have hlt := unvisited_follow_lt (hpending i List.mem_cons_self) hi rest
              (v₁.importsOf i)
            rw [hn] at hlt
            obtain ⟨limit, r, v', w', h⟩ := ih _ hlt _ v₁ w₁ hpending₁ hall₁ rfl
            exact ⟨limit + 1, r, v', w', (hstep limit).trans h⟩

end SlotFrame.View
