import SlotFrame.Proofs.View.SearchSteps

/-! # The views that operations lead to

A view starts with one document. From then on it is asked questions, its primary document is
edited, imports are loaded and folded in, prefix maps are fetched and induced slots written out, in
any order and with any outcome. Sources and the web act on a world of their own, so they may answer
differently at any time.

Main definitions: `View.Question`, `View.Reachable`, `View.Searching`, `View.Stable`,
`View.SearchingWith`, `View.LoadingWith`.

Main statement: `View.Reachable.induct` (what single changes of a view preserve holds of every
reachable view). -/

namespace SlotFrame.View

variable {α β : Type}

/-! ### Answers step by step -/

@[simp] theorem ask_pure (v : View) (a : α) : v.ask (pure a) = (.ok a, v) := rfl

@[simp] theorem ask_get (v : View) : v.ask get = (.ok v, v) := rfl

@[simp] theorem ask_modify (v : View) (f : View → View) :
    v.ask (modify f : Asking PUnit) = (.ok ⟨⟩, f v) := rfl

theorem ask_bind (v : View) (q : Asking α) (k : α → Asking β) :
    v.ask (q >>= k) = match v.ask q with
      | (.ok a, v') => v'.ask (k a)
      | (.error f, v') => (.error f, v') := by
  show StateT.run (ExceptT.run (q >>= k)) v = _
  rw [ExceptT.run_bind, StateT.run_bind]
  unfold ask
  cases h : (StateT.run (ExceptT.run q) v) with
  | mk r v' => cases r <;> rfl

theorem ask_ofRegistry (v : View) (f : Registry → Result α) :
    v.ask (ofRegistry f) = (f v.registry, v) := by
  unfold ofRegistry
  rw [ask_bind, ask_get]
  cases h : f v.registry with
  | ok a => simp [h]
  | error e =>
    simp only [h]
    rfl

theorem ask_remember (v : View) (read : Memo → Option α) (write : α → Memo → Memo)
    (work : Asking α) :
    v.ask (remember read write work) = match v.recalled read with
      | some a => (.ok a, v)
      | none => match v.ask work with
        | (.ok a, v') => (.ok a, v'.keep (write a))
        | (.error f, v') => (.error f, v') := by
  unfold remember
  rw [ask_bind, ask_get]
  cases h : v.recalled read with
  | some a => simp [h]
  | none =>
    simp only [h]
    rw [ask_bind]
    cases v.ask work with
    | mk r v' =>
      cases r with
      | error f => rfl
      | ok a =>
        show v'.ask (modify _ >>= fun _ => pure a) = _
        rw [ask_bind, ask_modify]
        rfl

theorem ask_expansion_snd (v : View) (cache : PrefixCache) (reference : String) :
    (v.ask (expansion cache reference)).2 =
      if v.config.imports.needsExpansion reference then (v.ask (namespaces cache)).2 else v := by
  unfold expansion
  rw [ask_bind, ask_get]
  dsimp only
  by_cases h : v.config.imports.needsExpansion reference = true
  · rw [if_pos h, if_pos h, ask_bind]
    cases v.ask (namespaces cache) with
    | mk r v' => cases r <;> rfl
  · rw [if_neg h, if_neg h]
    rfl

/-! ### What a load of an import leaves alone -/

section load

variable {W : Type} (source : Source (StateM W)) (cache : PrefixCache) (reference : String)
  (importer : Option Schema) (v : View) (w : W)

theorem registry_namespaces : (v.ask (namespaces cache)).2.registry = v.registry := by
  unfold namespaces
  rw [ask_remember, ask_ofRegistry]
  cases v.recalled Memo.namespaces with
  | some t => rfl
  | none => cases v.registry.namespaces cache <;> rfl

theorem registry_expansion : (v.ask (expansion cache reference)).2.registry = v.registry := by
  rw [ask_expansion_snd]
  split
  · exact registry_namespaces cache v
  · rfl

theorem registry_locateImport :
    ((v.locateImport source cache reference importer).run w).1.2.registry = v.registry := by
  unfold locateImport
  split
  · rfl
  · exact registry_expansion cache reference v

/-- To load an import changes no document. -/
theorem registry_loadImport :
    ((v.loadImport source cache reference importer).run w).1.2.registry = v.registry := by
  have hl := registry_locateImport source cache reference importer v w
  unfold loadImport
  rw [StateT.run_bind]
  cases h : (v.locateImport source cache reference importer).run w with
  | mk a w' =>
    obtain ⟨found, v'⟩ := a
    rw [h] at hl
    cases found with
    | ok l => exact hl
    | error f => exact hl

end load

/-! ### Histories of a view -/

/-- The questions that a view remembers answers of, and those that are made of them. -/
inductive Question : {α : Type} → Asking α → Prop
  | inducedSlot (name : String) (className : Option String) : Question (inducedSlot name className)
  | inducedType (name : String) : Question (inducedType name)
  | classInducedSlots (className : String) : Question (classInducedSlots className)
  | inducedClass (className : String) : Question (inducedClass className)
  | identifierSlot (className : String) : Question (identifierSlot className)
  | inducedSlots : Question inducedSlots
  | elementOwners : Question elementOwners
  | ownerOf (element : String) : Question (ownerOf element)
  | namespaces (cache : PrefixCache) : Question (namespaces cache)

/-- The views that any finite sequence of operations leads to, whatever the outcome of each. -/
inductive Reachable : View → Prop
  | ofSchema (s : Schema) (config : Config) : Reachable (ofSchema s config)
  | ask {α : Type} {q : Asking α} (hq : Question q) {v : View} (hv : Reachable v) :
      Reachable (v.ask q).2
  | editPrimary (f : Schema → Schema) {v : View} (hv : Reachable v) : Reachable (v.editPrimary f)
  | materialize {v : View} (hv : Reachable v) : Reachable (v.ask materialize).2
  | loadImports {W : Type} (source : Source (StateM W)) (cache : PrefixCache) (w : W) {v : View}
      (hv : Reachable v) : Reachable ((v.loadImports source cache).run w).1.2
  | mergeImports {W : Type} (source : Source (StateM W)) (cache : PrefixCache) (w : W) {v : View}
      (hv : Reachable v) : Reachable ((v.mergeImports source cache).run w).1.2
  | loadPrefixMaps {W : Type} (web : Web (StateM W)) (cache : PrefixCache) (w : W) {v : View}
      (hv : Reachable v) : Reachable ((v.loadPrefixMaps web cache).run w).1.2.2

/-- A property of views that a search for imports keeps: it asks questions and registers what it
finds. -/
structure Searching (P : View → Prop) : Prop where
  ask {α : Type} {q : Asking α} (hq : Question q) {v : View} (hv : P v) : P (v.ask q).2
  insert {reference : String} (d : Schema) {v : View} (hnew : ¬ v.registry.contains reference = true)
    (hv : P v) : P (v.replace (v.registry.insert reference d hnew))

/-- A property of views that no single change of a view destroys. -/
structure Stable (P : View → Prop) : Prop extends Searching P where
  editPrimary (f : Schema → Schema) {v : View} (hv : P v) : P (v.editPrimary f)
  writeAll (slots : List (String × List SlotDef)) {v : View} (hv : P v) :
    P (v.replace (v.registry.writeAll slots))
  tagDocuments {v : View} (hv : P v) : P v.tagDocuments
  flatten {v : View} (hv : P v) : P (v.replace v.registry.flatten)
  advance {v : View} (hv : P v) : P v.advance

/-- A property of views that a search for imports with some prefix maps keeps: it asks for no more
than the table of prefixes. -/
structure SearchingWith (cache : PrefixCache) (P : View → Prop) : Prop where
  namespaces {v : View} (hv : P v) : P (v.ask (namespaces cache)).2
  insert {reference : String} (d : Schema) {v : View} (hnew : ¬ v.registry.contains reference = true)
    (hv : P v) : P (v.replace (v.registry.insert reference d hnew))

/-- A property of views that loading and folding imports with some prefix maps keeps. -/
structure LoadingWith (cache : PrefixCache) (P : View → Prop) : Prop
    extends SearchingWith cache P where
  tagDocuments {v : View} (hv : P v) : P v.tagDocuments
  flatten {v : View} (hv : P v) : P (v.replace v.registry.flatten)

namespace SearchingWith

variable {cache : PrefixCache} {P : View → Prop} (hP : SearchingWith cache P) {W : Type}

include hP

theorem expansion (reference : String) {v : View} (hv : P v) :
    P (v.ask (View.expansion cache reference)).2 := by
  rw [ask_expansion_snd]
  split
  · exact hP.namespaces hv
  · exact hv

variable (source : Source (StateM W))

theorem locateImport (reference : String) (importer : Option Schema) (w : W) {v : View} (hv : P v) :
    P ((v.locateImport source cache reference importer).run w).1.2 := by
  unfold View.locateImport
  split
  · exact hv
  · exact hP.expansion reference hv

theorem loadImport (reference : String) (importer : Option Schema) (w : W) {v : View} (hv : P v) :
    P ((v.loadImport source cache reference importer).run w).1.2 := by
  have hl := hP.locateImport source reference importer w hv
  unfold View.loadImport
  rw [StateT.run_bind]
  cases h : (v.locateImport source cache reference importer).run w with
  | mk a w' =>
    obtain ⟨found, v'⟩ := a
    rw [h] at hl
    cases found with
    | ok l => exact hl
    | error f => exact hl

theorem ensureDocument (s : ImportSearch) (reference : String) (w : W) {v : View} (hv : P v) :
    P ((v.ensureDocument source cache s reference).run w).1.2 := by
  by_cases hi : v.registry.contains reference = true
  · rw [run_ensureDocument_of_contains source cache w hi]
    exact hv
  · have hl := hP.loadImport source reference
      ((s.askedBy.lookup reference).bind v.registry.document?) w hv
    have hr := registry_loadImport source cache reference
      ((s.askedBy.lookup reference).bind v.registry.document?) v w
    rw [run_ensureDocument_of_new source cache w hi]
    cases h : (v.loadImport source cache reference
        ((s.askedBy.lookup reference).bind v.registry.document?)).run w with
    | mk a w' =>
      obtain ⟨loaded, u⟩ := a
      rw [h] at hl hr
      cases loaded with
      | ok d =>
        show P (u.replace (v.registry.insert reference d hi))
        rw [← Registry.insert_congr d hi hr]
        exact hP.insert d _ hl
      | error f => exact hl

theorem searchImports (limit : Nat) (s : ImportSearch) (w : W) {v : View} (hv : P v) :
    P ((searchImports source cache limit s v).run w).1.2 := by
  induction limit generalizing s v w with
  | zero => exact hv
  | succ limit ih =>
    cases hpending : s.pending with
    | nil =>
      rw [run_searchImports_nil source cache limit v w hpending]
      exact hv
    | cons i rest =>
      by_cases hi : i ∈ s.visited
      · rw [run_searchImports_visited source cache limit v w hpending hi]
        exact ih _ w hv
      · rw [run_searchImports_unvisited source cache limit v w hpending hi]
        have he := hP.ensureDocument source { s with pending := rest } i w hv
        cases h : (v.ensureDocument source cache { s with pending := rest } i).run w with
        | mk a w' =>
          obtain ⟨r, v'⟩ := a
          rw [h] at he
          cases r with
          | ok _ => exact ih _ w' he
          | error f => exact he

end SearchingWith

namespace LoadingWith

variable {cache : PrefixCache} {P : View → Prop} (hP : LoadingWith cache P) {W : Type}
  (source : Source (StateM W))

include hP

theorem loadImports (w : W) {v : View} (hv : P v) :
    P ((v.loadImports source cache).run w).1.2 := by
  show P ((v.loadImportsWithin importLimit source cache).run w).1.2
  cases hloaded : v.loaded with
  | true =>
    rw [run_loadImportsWithin_of_loaded importLimit hloaded w]
    exact hv
  | false =>
    rw [run_loadImportsWithin importLimit hloaded w]
    have hs := hP.toSearchingWith.searchImports source importLimit v.importSearch w hv
    cases h : (View.searchImports source cache importLimit v.importSearch v).run w with
    | mk a w' =>
      obtain ⟨r, v'⟩ := a
      rw [h] at hs
      match r with
      | some (.ok _) => exact hP.tagDocuments hs
      | some (.error f) => exact hs
      | none => exact hs

theorem mergeImports (w : W) {v : View} (hv : P v) :
    P ((v.mergeImports source cache).run w).1.2 := by
  have hl := hP.loadImports source w hv
  unfold View.mergeImports
  rw [StateT.run_bind]
  cases h : (v.loadImports source cache).run w with
  | mk a w' =>
    obtain ⟨r, v'⟩ := a
    rw [h] at hl
    cases r with
    | ok _ => exact hP.flatten hl
    | error f => exact hl

end LoadingWith

theorem Searching.searchingWith {P : View → Prop} (hP : Searching P) (cache : PrefixCache) :
    SearchingWith cache P where
  namespaces := hP.ask (.namespaces cache)
  insert := hP.insert

theorem Searching.searchImports {P : View → Prop} (hP : Searching P) {W : Type}
    (source : Source (StateM W)) (cache : PrefixCache) (limit : Nat) (s : ImportSearch) (w : W)
    {v : View} (hv : P v) : P ((View.searchImports source cache limit s v).run w).1.2 :=
  (hP.searchingWith cache).searchImports source limit s w hv

namespace Stable

variable {P : View → Prop} (hP : Stable P) {W : Type}

include hP

theorem loadingWith (cache : PrefixCache) : LoadingWith cache P where
  toSearchingWith := hP.toSearching.searchingWith cache
  tagDocuments := hP.tagDocuments
  flatten := hP.flatten

theorem materialize {v : View} (hv : P v) : P (v.ask View.materialize).2 := by
  have hslots := hP.ask Question.inducedSlots hv
  unfold View.materialize
  rw [ask_bind]
  cases h : v.ask View.inducedSlots with
  | mk r v' =>
    rw [h] at hslots
    cases r with
    | ok slots => exact hP.writeAll slots hslots
    | error f => exact hslots

theorem loadPrefixMaps (cache : PrefixCache) (web : Web (StateM W)) (w : W) {v : View}
    (hv : P v) : P ((v.loadPrefixMaps web cache).run w).1.2.2 := by
  unfold View.loadPrefixMaps
  rw [StateT.run_bind]
  cases (fetchMaps v.config.registry web v.primary.defaultCuriMaps cache).run w with
  | mk a w' =>
    obtain ⟨r, cache'⟩ := a
    cases r with
    | ok _ => exact hP.advance hv
    | error f => exact hv

end Stable

/-- What holds of new views and is stable holds of every reachable view. -/
theorem Reachable.induct {P : View → Prop} (hP : Stable P)
    (hnew : ∀ s config, P (View.ofSchema s config)) {v : View} (hv : v.Reachable) : P v := by
  induction hv with
  | ofSchema s config => exact hnew s config
  | ask hq _ ih => exact hP.ask hq ih
  | editPrimary f _ ih => exact hP.editPrimary f ih
  | materialize _ ih => exact hP.materialize ih
  | loadImports source cache w _ ih => exact (hP.loadingWith cache).loadImports source w ih
  | mergeImports source cache w _ ih => exact (hP.loadingWith cache).mergeImports source w ih
  | loadPrefixMaps web cache w _ ih => exact hP.loadPrefixMaps cache web w ih

end SlotFrame.View
