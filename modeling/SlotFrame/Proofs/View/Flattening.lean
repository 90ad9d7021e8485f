import SlotFrame.Proofs.Registry.Flattening
import SlotFrame.Proofs.View.Remembering

/-! # What folding the imports into a view leaves

A search for imports only registers documents, and tagging only marks elements, so the primary
document that is folded is the one that the view began with. What is left is one document that
declares everything, and folding again finds nothing to do.

Main statement: `View.mergeImports_eq_ok_iff`. -/

namespace SlotFrame.View

/-! ### What a search keeps -/

/-- A search for imports neither changes the primary document nor renames it. -/
theorem searching_primary (key : String) (primary : Schema) :
    Searching fun v => v.registry.key = key ∧ v.registry.primary = primary where
  ask {_ q} hq {v} hv := by
    rw [hq.quiet.registry v]
    exact hv
  insert _ _ _ hv := hv

theorem declaring_tagProvenance (origin : String) (s : Schema) :
    (s.tagProvenance origin).declaring s = s := rfl

variable {W : Type} {source : Source (StateM W)} {cache : PrefixCache} {v v' : View} {w w' : W}

/-- A view whose imports are loaded keeps its key and, but for tags, its primary document. -/
theorem loaded_of_loadImportsWithin {limit : Nat}
    (h : (v.loadImportsWithin limit source cache).run w = ((some (.ok ()), v'), w')) :
    v'.loaded = true ∧ v'.registry.key = v.registry.key ∧
      v'.primary.declaring v.primary = v.primary := by
  cases hloaded : v.loaded with
  | true =>
    rw [run_loadImportsWithin_of_loaded limit hloaded w] at h
    cases h
    exact ⟨hloaded, rfl, rfl⟩
  | false =>
    obtain ⟨v₁, hs, rfl⟩ := searchImports_of_loadImportsWithin hloaded h
    have hkept := (searching_primary v.registry.key v.registry.primary).searchImports source cache
      limit v.importSearch w ⟨rfl, rfl⟩
    rw [hs] at hkept
    obtain ⟨hkey, hprimary⟩ := hkept
    refine ⟨rfl, hkey, ?_⟩
    show (v₁.registry.primary.tagProvenance _).declaring v.primary = v.primary
    rw [show v₁.registry.primary = v.primary from hprimary]
    exact declaring_tagProvenance _ v.primary

theorem loadImports_eq_ok_iff : (v.loadImports source cache).run w = ((.ok (), v'), w') ↔
    (v.loadImportsWithin importLimit source cache).run w = ((some (.ok ()), v'), w') := by
  unfold loadImports
  rw [StateT.run_bind]
  cases (v.loadImportsWithin importLimit source cache).run w with
  | mk a w₁ =>
    obtain ⟨r, v₁⟩ := a
    constructor
    · intro h
      match r with
      | none => cases h
      | some (.error f) => cases h
      | some (.ok _) =>
        cases h
        rfl
    · intro h
      cases h
      rfl

/-- A load that fails has searched, or has come to the limit. -/
theorem searchImports_of_failed_loadImports {f : Fault}
    (h : (v.loadImports source cache).run w = ((.error f, v'), w')) :
    v.loaded = false ∧
      ∃ r, (searchImports source cache importLimit v.importSearch v).run w = ((r, v'), w') := by
  unfold loadImports at h
  rw [StateT.run_bind] at h
  cases hloaded : v.loaded with
  | true =>
    rw [run_loadImportsWithin_of_loaded importLimit hloaded w] at h
    cases h
  | false =>
    rw [run_loadImportsWithin importLimit hloaded w] at h
    cases hs : (searchImports source cache importLimit v.importSearch v).run w with
    | mk a w₁ =>
      obtain ⟨r, v₁⟩ := a
      rw [hs] at h
      match r with
      | none =>
        cases h
        exact ⟨rfl, _, rfl⟩
      | some (.error f) =>
        cases h
        exact ⟨rfl, _, rfl⟩
      | some (.ok _) => cases h

/-! ### Folding -/

/-- Imports are folded exactly when they have been loaded. -/
theorem mergeImports_eq_ok_iff : (v.mergeImports source cache).run w = ((.ok (), v'), w') ↔
    ∃ v₁, (v.loadImports source cache).run w = ((.ok (), v₁), w') ∧
      v' = v₁.replace v₁.registry.flatten := by
  unfold mergeImports
  rw [StateT.run_bind]
  cases (v.loadImports source cache).run w with
  | mk a w₁ =>
    obtain ⟨r, v₁⟩ := a
    cases r with
    | error f =>
      constructor
      · intro h
        cases h
      · rintro ⟨_, ⟨⟩, _⟩
    | ok _ =>
      constructor
      · intro h
        cases h
        exact ⟨v₁, rfl, rfl⟩
      · rintro ⟨_, ⟨⟩, rfl⟩
        rfl

/-- A loaded view is folded without asking the source for anything. -/
theorem mergeImports_of_loaded (hv : v.loaded = true) (source : Source (StateM W))
    (cache : PrefixCache) (w : W) :
    (v.mergeImports source cache).run w = ((.ok (), v.replace v.registry.flatten), w) := by
  rw [mergeImports_eq_ok_iff]
  refine ⟨v, ?_, rfl⟩
  rw [loadImports_eq_ok_iff]
  exact run_loadImportsWithin_of_loaded importLimit hv w

/-- **Folding the imports in leaves one document that declares everything.** Whenever it succeeds,
the imports have been loaded; the primary document then maps every name that a loaded document
declares to its earliest declaration, in the order of first declaration, imports nothing, is
otherwise what it was, and stands alone. No kind of element but the slots has changed the order of
its names, looking at imports or not no longer matters, and folding again changes nothing. -/
theorem mergeImports_flattens (h : (v.mergeImports source cache).run w = ((.ok (), v'), w')) :
    ∃ v₁, (v.loadImports source cache).run w = ((.ok (), v₁), w') ∧
      v'.primary.Folded v.primary (v₁.registry.documents true) ∧
      v'.registry.entries = [(v.registry.key, v'.primary)] ∧
      v'.registry.SameNames v₁.registry ∧
      v'.registry.SelfContained ∧
      ∀ {W₂ : Type} (source₂ : Source (StateM W₂)) (cache₂ : PrefixCache) (w₂ : W₂),
        ∃ v₂, (v'.mergeImports source₂ cache₂).run w₂ = ((.ok (), v₂), w₂) ∧
          v₂.registry = v'.registry := by
  obtain ⟨v₁, hload, rfl⟩ := mergeImports_eq_ok_iff.1 h
  obtain ⟨hloaded, hkey, hkept⟩ := loaded_of_loadImportsWithin (loadImports_eq_ok_iff.1 hload)
  have hfolded := v₁.registry.flattened_folded.of_declaring hkept
  have hentries : v₁.registry.flatten.entries = [(v.registry.key, v₁.registry.flattened)] := by
    rw [← hkey]
    rfl
  refine ⟨v₁, hload, hfolded, hentries, v₁.registry.flatten_sameNames,
    v₁.registry.flatten_selfContained, ?_⟩
  intro W₂ source₂ cache₂ w₂
  have hloaded' : (v₁.replace v₁.registry.flatten).loaded = true := hloaded
  exact ⟨_, mergeImports_of_loaded hloaded' source₂ cache₂ w₂, v₁.registry.flatten_flatten⟩

/-- A document that declares classes with descriptions. -/
def describing (name : String) (classes : List (String × String)) : Schema where
  name := name
  classes := Table.ofList <| classes.map fun e =>
    (e.1, { name := e.1, metadata := { description := some e.2 } })

/-- Of a class that three documents describe the primary one keeps its own description, and of one
that only the imported documents describe it takes the first. -/
theorem mergeImports_flattens_collisions :
    let v : View := {
      registry := {
        key := "p", primary := describing "p" [("B", "1")]
        imported := Table.ofList [("x", describing "x" [("A", "2"), ("B", "2")]),
          ("y", describing "y" [("C", "3"), ("A", "3"), ("B", "3")])]
        fresh := rfl }
      loaded := true }
    let source : Source (StateM Unit) := .ofTable ∅
    ∃ v' v₁ : View, (v.mergeImports source ∅).run () = ((.ok (), v'), ()) ∧
      (v.loadImports source ∅).run () = ((.ok (), v₁), ()) ∧
      v'.primary.Folded v.primary (v₁.registry.documents true) ∧
      v'.registry.SameNames v₁.registry ∧
      v'.primary.classes.keys = ["B", "A", "C"] ∧
      v'.primary.classes.values.map (·.metadata.description) =
        [some "1", some "2", some "3"] := by
  intro v source
  have hmerge : (v.mergeImports source ∅).run () =
      ((.ok (), v.replace v.registry.flatten), ()) := rfl
  obtain ⟨v₁, hload, hfolded, _, hnames, _⟩ := mergeImports_flattens hmerge
  exact ⟨_, v₁, hmerge, hload, hfolded, hnames, rfl, rfl⟩

end SlotFrame.View
