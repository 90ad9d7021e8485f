import SlotFrame.Proofs.View.Flattening

/-! # What is registered once the imports are loaded

A search for imports registers documents and never takes one away, and a search that fails leaves
what it has registered. So once the imports are loaded the registry holds what it held before and
what the documents import, as they are then. Nothing is left over as long as no edit of the primary
document takes back an import; a document whose import has been taken back after a failed search
stays.

Main definitions: `Registry.Imported`, `Delivered`, `Source.Delivers`, `View.Gathering`,
`View.Retrying`.

Main statements: `View.entries_searchImports` (a search only adds what the source delivers),
`View.Gathering.searchImports` (what a search has come to), `View.loadImports_registers` and
`View.loadImports_keeps_abandoned`. -/

namespace SlotFrame

/-! ### Imported references -/

namespace Registry

/-- The references that the primary document imports, and those that documents import which stand
under such references. -/
inductive Imported (r : Registry) : String → Prop
  | primary {i : String} (h : i ∈ r.primary.imports) : Imported r i
  | follow {i j : String} {d : Schema} (hi : Imported r i) (hd : r.document? i = some d)
      (hj : j ∈ d.imports) : Imported r j

theorem Imported.mono {r s : Registry} {i : String}
    (hprimary : ∀ i ∈ r.primary.imports, i ∈ s.primary.imports)
    (hdocument : ∀ i d, r.document? i = some d →
      ∃ e, s.document? i = some e ∧ ∀ j ∈ d.imports, j ∈ e.imports)
    (hi : r.Imported i) : s.Imported i := by
  induction hi with
  | primary h => exact .primary (hprimary _ h)
  | follow _ hd hj ih =>
    obtain ⟨e, he, himports⟩ := hdocument _ _ hd
    exact .follow ih he (himports _ hj)

theorem Imported.gains {r s : Registry} {i reference : String} (hi : r.Imported i)
    (h : r.Gains reference s) : s.Imported i := by
  refine hi.mono ?_ ?_
  · intro j hj
    rw [h.primary]
    exact hj
  · intro j e he
    exact ⟨e, h.document? j e he, fun _ hk => hk⟩

/-- Changes that leave the imports of every document alone leave the imported references alone. -/
theorem imported_mapDocuments_iff {r : Registry} {f : Schema → Schema}
    (hf : ∀ d, (f d).imports = d.imports) {i : String} :
    (r.mapDocuments f).Imported i ↔ r.Imported i := by
  have hprimary : (r.mapDocuments f).primary.imports = r.primary.imports := hf r.primary
  constructor
  · intro h
    refine h.mono ?_ ?_
    · intro j hj
      rw [← hprimary]
      exact hj
    · intro j d hd
      rw [document?_mapDocuments, Option.map_eq_some_iff] at hd
      obtain ⟨e, he, rfl⟩ := hd
      exact ⟨e, he, fun k hk => by rw [← hf e]; exact hk⟩
  · intro h
    refine h.mono ?_ ?_
    · intro j hj
      rw [hprimary]
      exact hj
    · intro j d hd
      refine ⟨f d, ?_, fun k hk => by rw [hf d]; exact hk⟩
      rw [document?_mapDocuments, hd]
      rfl

end Registry

/-- A document that a delivery holds. -/
def Delivered (d : Schema) : Prop :=
  ∃ timeout l delivery, documentOf timeout l delivery = .ok d

/-- A document that a source delivers at some time. -/
def Source.Delivers {W : Type} (source : Source (StateM W)) (d : Schema) : Prop :=
  ∃ timeout l w, documentOf timeout l ((source.deliver l).run w).1 = .ok d

theorem Source.Delivers.delivered {W : Type} {source : Source (StateM W)} {d : Schema}
    (h : source.Delivers d) : Delivered d := by
  obtain ⟨timeout, l, w, h⟩ := h
  exact ⟨timeout, l, _, h⟩

namespace View

variable {W : Type} {source : Source (StateM W)} {cache : PrefixCache}

/-! ### One document -/

theorem delivers_of_loadDocument {timeout : Duration} {l : Location} {d : Schema} {w w' : W}
    (h : (loadDocument source timeout l).run w = (.ok d, w')) : source.Delivers d :=
  ⟨timeout, l, w, congrArg Prod.fst h⟩

/-- A file is read into a view of its document alone. -/
theorem exists_delivered_of_load {path : String} {config : Config} {v : View} {w w' : W}
    (h : (View.load source path config).run w = (.ok v, w')) :
    ∃ s, Delivered s ∧ v = ofSchema s config := by
  unfold View.load at h
  cases hconfig : config.check with
  | error f =>
    rw [hconfig] at h
    cases h
  | ok _ =>
    rw [hconfig] at h
    dsimp only at h
    rw [StateT.run_bind] at h
    cases hload : (loadDocument source config.imports.timeout (.file path)).run w with
    | mk loaded w₁ =>
      rw [hload] at h
      cases loaded with
      | error f => cases h
      | ok s =>
        cases h
        exact ⟨s, (delivers_of_loadDocument hload).delivered, rfl⟩

theorem delivers_of_loadImport {reference : String} {importer : Option Schema} {v v' : View}
    {d : Schema} {w w' : W}
    (h : (v.loadImport source cache reference importer).run w = ((.ok d, v'), w')) :
    source.Delivers d := by
  unfold loadImport at h
  rw [StateT.run_bind] at h
  cases hlocate : (v.locateImport source cache reference importer).run w with
  | mk a w₁ =>
    obtain ⟨found, v₁⟩ := a
    rw [hlocate] at h
    cases found with
    | error f => cases h
    | ok l =>
      have hrun : (do
          let loaded ← loadDocument source v₁.config.imports.timeout l
          return (loaded.mapError (loadFault reference l), v₁) :
            StateM W (Result Schema × View)).run w₁ = ((.ok d, v'), w') := h
      rw [StateT.run_bind] at hrun
      cases hload : (loadDocument source v₁.config.imports.timeout l).run w₁ with
      | mk loaded w₂ =>
        rw [hload] at hrun
        cases loaded with
        | error f => cases hrun
        | ok e =>
          cases hrun
          exact delivers_of_loadDocument hload

/-- A step makes sure of a document, which is there or delivered, or it fails and leaves the
registry as it is. -/
theorem ensureDocument_cases {s : ImportSearch} {i : String} {v v' : View} {w w' : W}
    {r : Result Unit} (h : (v.ensureDocument source cache s i).run w = ((r, v'), w')) :
    (r = .ok () ∧ v.registry.Gains i v'.registry ∧ ∃ added,
      v'.registry.entries = v.registry.entries ++ added ∧ ∀ e ∈ added, source.Delivers e.2) ∨
      ∃ f, r = .error f ∧ v'.registry = v.registry := by
  by_cases hi : v.registry.contains i = true
  · rw [run_ensureDocument_of_contains source cache w hi] at h
    cases h
    exact .inl ⟨rfl, .refl hi, [], (List.append_nil _).symm, List.forall_mem_nil _⟩
  · have hl := registry_loadImport source cache i ((s.askedBy.lookup i).bind v.registry.document?)
      v w
    rw [run_ensureDocument_of_new source cache w hi] at h
    cases hload : (v.loadImport source cache i
        ((s.askedBy.lookup i).bind v.registry.document?)).run w with
    | mk a w₁ =>
      obtain ⟨loaded, v₁⟩ := a
      rw [hload] at h hl
      cases loaded with
      | error f =>
        cases h
        exact .inr ⟨f, rfl, hl⟩
      | ok d =>
        cases h
        have hd : source.Delivers d := delivers_of_loadImport hload
        exact .inl ⟨rfl, Registry.gains_insert d hi, [(i, d)], Registry.entries_insert d hi,
          List.forall_mem_singleton.2 hd⟩

/-! ### A whole search -/

/-- A search leaves the registered documents as they are, and registers documents that the source
delivers behind them. -/
theorem entries_searchImports {limit : Nat} {s : ImportSearch} {v v' : View} {w w' : W}
    {r : Option (Result Unit)}
    (h : (searchImports source cache limit s v).run w = ((r, v'), w')) :
    ∃ added, v'.registry.entries = v.registry.entries ++ added ∧
      ∀ e ∈ added, source.Delivers e.2 := by
  have hnothing : ∀ {u u' : View}, u'.registry = u.registry → ∃ added,
      u'.registry.entries = u.registry.entries ++ added ∧ ∀ e ∈ added, source.Delivers e.2 := by
    intro u u' hr
    rw [hr]
    exact ⟨[], (List.append_nil _).symm, List.forall_mem_nil _⟩
  induction limit generalizing s v w with
  | zero =>
    cases h
    exact hnothing rfl
  | succ limit ih =>
    cases hp : s.pending with
    | nil =>
      rw [run_searchImports_nil source cache limit v w hp] at h
      cases h
      exact hnothing rfl
    | cons i rest =>
      by_cases hi : i ∈ s.visited
      · rw [run_searchImports_visited source cache limit v w hp hi] at h
        exact ih h
      · rw [run_searchImports_unvisited source cache limit v w hp hi] at h
        cases he : (v.ensureDocument source cache { s with pending := rest } i).run w with
        | mk a w₁ =>
          obtain ⟨r₁, v₁⟩ := a
          rw [he] at h
          rcases ensureDocument_cases he with ⟨rfl, -, first, hfirst, hdelivered⟩ | ⟨f, rfl, hv₁⟩
          · obtain ⟨added, hadded, hdelivers⟩ := ih h
            refine ⟨first ++ added, ?_, List.forall_mem_append.2 ⟨hdelivered, hdelivers⟩⟩
            rw [hadded, hfirst, List.append_assoc]
          · cases h
            exact hnothing hv₁

/-- A search that began with a registry and has come some way: it visits imported references alone,
what it has visited is registered and has its imports visited or waiting, and nothing else has been
registered. -/
structure Gathering (start : Registry) (s : ImportSearch) (v : View) : Prop where
  key : v.registry.key = start.key
  primary : v.registry.primary = start.primary
  begun : start.key ∈ s.visited ∨ start.key ∈ s.pending
  imported : ∀ i, i ∈ s.visited ∨ i ∈ s.pending → i = start.key ∨ v.registry.Imported i
  followed : ∀ i ∈ s.visited, ∀ j ∈ v.importsOf i, j ∈ s.visited ∨ j ∈ s.pending
  registered : ∀ i, v.registry.contains i = true ↔ start.contains i = true ∨ i ∈ s.visited
  grown : ∀ i, start.Imported i → v.registry.Imported i

namespace Gathering

variable {start : Registry} {s : ImportSearch} {v v' : View} {i : String} {rest : List String}

theorem new (v : View) : Gathering v.registry v.importSearch v where
  key := rfl
  primary := rfl
  begun := .inr List.mem_cons_self
  imported j hj := by
    rcases hj with hj | hj
    · cases hj
    · exact .inl (List.mem_singleton.1 hj)
  followed j hj := by cases hj
  registered j := by
    constructor
    · exact .inl
    · rintro (hj | hj)
      · exact hj
      · cases hj
  grown _ hj := hj

theorem of_registry (h : Gathering start s v) (hr : v'.registry = v.registry) :
    Gathering start s v' := by
  have himports : ∀ j, v'.importsOf j = v.importsOf j := by
    intro j
    unfold importsOf
    rw [hr]
  refine ⟨?_, ?_, h.begun, ?_, ?_, ?_, ?_⟩
  · rw [hr, h.key]
  · rw [hr, h.primary]
  · rw [hr]
    exact h.imported
  · intro j hj k hk
    rw [himports] at hk
    exact h.followed j hj k hk
  · rw [hr]
    exact h.registered
  · rw [hr]
    exact h.grown

theorem pass (h : Gathering start s v) (hp : s.pending = i :: rest) (hi : i ∈ s.visited) :
    Gathering start { s with pending := rest } v := by
  have hdrop : ∀ j, j ∈ s.visited ∨ j ∈ s.pending → j ∈ s.visited ∨ j ∈ rest := by
    rintro j (hj | hj)
    · exact .inl hj
    · rw [hp, List.mem_cons] at hj
      rcases hj with rfl | hj
      · exact .inl hi
      · exact .inr hj
  refine { h with begun := hdrop _ h.begun, imported := ?_, followed := ?_ }
  · intro j hj
    refine h.imported j ?_
    rw [hp]
    exact hj.imp id (List.mem_cons_of_mem i)
  · intro j hj k hk
    exact hdrop k (h.followed j hj k hk)

/-- What has been met when a reference is followed. -/
theorem met_follow_iff (s : ImportSearch) (imports : List String) (j : String) :
    (j ∈ (ImportSearch.follow { s with pending := rest } i imports).visited ∨
      j ∈ (ImportSearch.follow { s with pending := rest } i imports).pending) ↔
      j = i ∨ j ∈ s.visited ∨ j ∈ imports ∨ j ∈ rest := by
  unfold ImportSearch.follow
  simp only [List.mem_cons, List.mem_append, List.mem_reverse, List.mem_filter,
    decide_eq_true_eq, not_or]
  by_cases hi : j = i
  · simp [hi]
  · by_cases hj : j ∈ s.visited
    · simp [hj]
    · simp [hi, hj]

theorem visit (h : Gathering start s v) (hp : s.pending = i :: rest)
    (hv' : v.registry.Gains i v'.registry) :
    Gathering start (ImportSearch.follow { s with pending := rest } i (v'.importsOf i)) v' := by
  have hkey : v'.registry.key = start.key := hv'.key.trans h.key
  have hwaits : ∀ j, j ∈ s.visited ∨ j ∈ s.pending → j = i ∨ j ∈ s.visited ∨ j ∈ rest := by
    rintro j (hj | hj)
    · exact .inr (.inl hj)
    · rw [hp, List.mem_cons] at hj
      exact hj.imp id .inr
  have himported : ∀ j, j ∈ s.visited ∨ j ∈ s.pending →
      j = start.key ∨ v'.registry.Imported j := by
    intro j hj
    exact (h.imported j hj).imp id fun hk => hk.gains hv'
  -- The imports of a document that is met are imported themselves.
  have hbelow : ∀ j ∈ v'.importsOf i, v'.registry.Imported j := by
    intro j hj
    rcases himported i (.inr (hp ▸ List.mem_cons_self)) with rfl | hi
    · rw [← hkey, importsOf_key] at hj
      exact .primary hj
    · have hcontains : v'.registry.contains i = true := (hv'.contains_iff i).2 (.inl rfl)
      obtain ⟨e, he⟩ := Registry.exists_document? hcontains
      rw [importsOf_of_document? he] at hj
      exact .follow hi he hj
  constructor
  case key => exact hkey
  case primary => exact hv'.primary.trans h.primary
  case begun =>
    rw [met_follow_iff]
    exact (hwaits _ h.begun).imp id fun hk => hk.imp id .inr
  case imported =>
    intro j hj
    rcases (met_follow_iff s _ j).1 hj with rfl | hj | hj | hj
    · exact himported _ (.inr (hp ▸ List.mem_cons_self))
    · exact himported _ (.inl hj)
    · exact .inr (hbelow j hj)
    · exact himported _ (.inr (hp ▸ List.mem_cons_of_mem i hj))
  case followed =>
    intro j hj k hk
    rw [met_follow_iff]
    rcases List.mem_cons.1 hj with rfl | hj
    · exact .inr (.inr (.inl hk))
    · -- The document behind a visited reference is what it was.
      obtain ⟨e, he⟩ := Registry.exists_document? ((h.registered j).2 (.inr hj))
      have he' : v'.registry.document? j = some e := hv'.document? j e he
      rw [importsOf_of_document? he', ← importsOf_of_document? he] at hk
      exact (hwaits k (h.followed j hj k hk)).imp id fun hk => hk.imp id .inr
  case registered =>
    intro j
    rw [hv'.contains_iff, h.registered]
    show j = i ∨ start.contains j = true ∨ j ∈ s.visited ↔
      start.contains j = true ∨ j ∈ i :: s.visited
    rw [List.mem_cons, or_left_comm]
  case grown => exact fun j hj => (h.grown j hj).gains hv'

/-- Whatever a search comes to, it has gathered; nothing waits when it has come to an end. -/
theorem searchImports {limit : Nat} {w w' : W} {r : Option (Result Unit)}
    (h : Gathering start s v)
    (hrun : (View.searchImports source cache limit s v).run w = ((r, v'), w')) :
    ∃ s', Gathering start s' v' ∧ (r = some (.ok ()) → s'.pending = []) := by
  induction limit generalizing s v w with
  | zero =>
    cases hrun
    exact ⟨s, h, fun hr => by cases hr⟩
  | succ limit ih =>
    cases hp : s.pending with
    | nil =>
      rw [run_searchImports_nil source cache limit v w hp] at hrun
      cases hrun
      exact ⟨s, h, fun _ => hp⟩
    | cons i rest =>
      by_cases hi : i ∈ s.visited
      · rw [run_searchImports_visited source cache limit v w hp hi] at hrun
        exact ih (h.pass hp hi) hrun
      · rw [run_searchImports_unvisited source cache limit v w hp hi] at hrun
        cases he : (v.ensureDocument source cache { s with pending := rest } i).run w with
        | mk a w₁ =>
          obtain ⟨r₁, v₁⟩ := a
          rw [he] at hrun
          rcases ensureDocument_cases he with ⟨rfl, hv₁, -⟩ | ⟨f, rfl, hv₁⟩
          · exact ih (h.visit hp hv₁) hrun
          · cases hrun
            exact ⟨s, h.of_registry hv₁, fun hr => by cases hr⟩

/-- All imported references have been visited when nothing waits. -/
theorem visited_of_imported (h : Gathering start s v) (hp : s.pending = []) {j : String}
    (hj : v.registry.Imported j) : j ∈ s.visited := by
  have hvisited : ∀ k, k ∈ s.visited ∨ k ∈ s.pending → k ∈ s.visited := by
    intro k hk
    refine hk.resolve_right ?_
    rw [hp]
    exact List.not_mem_nil
  induction hj with
  | primary hk =>
    refine hvisited _ (h.followed start.key (hvisited _ h.begun) _ ?_)
    rw [← h.key, importsOf_key]
    exact hk
  | follow _ hd hk ih =>
    refine hvisited _ (h.followed _ ih _ ?_)
    rw [importsOf_of_document? hd]
    exact hk

theorem mem_keys_of_pending_eq_nil (h : Gathering start s v) (hp : s.pending = []) (j : String) :
    j ∈ v.registry.keys ↔ j ∈ start.keys ∨ v.registry.Imported j := by
  rw [← Registry.contains_iff, ← Registry.contains_iff, h.registered]
  constructor
  · rintro (hj | hj)
    · exact .inl hj
    · refine (h.imported j (.inl hj)).imp ?_ id
      rintro rfl
      exact start.contains_key
  · exact fun hj => hj.imp id (h.visited_of_imported hp)

theorem mem_keys (h : Gathering start s v) {j : String} (hj : j ∈ v.registry.keys) :
    j ∈ start.keys ∨ v.registry.Imported j := by
  rw [← Registry.contains_iff, h.registered] at hj
  rcases hj with hj | hj
  · exact .inl ((start.contains_iff j).1 hj)
  · refine (h.imported j (.inl hj)).imp ?_ id
    rintro rfl
    exact List.mem_cons_self

end Gathering

/-! ### Loading -/

variable {v v' : View} {w w' : W}

/-- A load that takes a view from unloaded to loaded registers what is imported and drops
nothing. -/
theorem mem_keys_of_loadImports (hloaded : v.loaded = false)
    (h : (v.loadImports source cache).run w = ((.ok (), v'), w')) :
    v'.registry.key = v.registry.key ∧ v'.primary.imports = v.primary.imports ∧
      (∀ i, i ∈ v'.registry.keys ↔ i ∈ v.registry.keys ∨ v'.registry.Imported i) ∧
      ∀ i, v.registry.Imported i → v'.registry.Imported i := by
  obtain ⟨v₁, hs, rfl⟩ := searchImports_of_loadImportsWithin hloaded (loadImports_eq_ok_iff.1 h)
  obtain ⟨s, hg, hp⟩ := (Gathering.new v).searchImports hs
  have htagged : v₁.tagDocuments.registry =
      v₁.registry.mapDocuments fun d => d.tagProvenance d.identity := rfl
  have himports : ∀ d : Schema, (d.tagProvenance d.identity).imports = d.imports := fun _ => rfl
  have himported : ∀ i, v₁.tagDocuments.registry.Imported i ↔ v₁.registry.Imported i := by
    intro i
    rw [htagged]
    exact Registry.imported_mapDocuments_iff himports
  refine ⟨hg.key, ?_, ?_, ?_⟩
  · show v₁.registry.primary.imports = v.registry.primary.imports
    rw [hg.primary]
  · intro i
    rw [himported, htagged, Registry.keys_mapDocuments]
    exact hg.mem_keys_of_pending_eq_nil (hp rfl) i
  · intro i hi
    exact (himported i).2 (hg.grown i hi)

/-- A load that fails registers only what is imported, and leaves imported what was. -/
theorem mem_keys_of_failed_loadImports {f : Fault}
    (h : (v.loadImports source cache).run w = ((.error f, v'), w')) :
    v'.registry.key = v.registry.key ∧
      (∀ i ∈ v'.registry.keys, i ∈ v.registry.keys ∨ v'.registry.Imported i) ∧
      ∀ i, v.registry.Imported i → v'.registry.Imported i := by
  obtain ⟨_, r, hs⟩ := searchImports_of_failed_loadImports h
  obtain ⟨s, hg, _⟩ := (Gathering.new v).searchImports hs
  exact ⟨hg.key, fun i hi => hg.mem_keys hi, hg.grown⟩

/-- The views that failed loads and edits of the primary document lead to, as long as no edit takes
back an import. -/
inductive Retrying : View → Prop
  | ofSchema (s : Schema) (config : Config) : Retrying (ofSchema s config)
  | failed {W : Type} {source : Source (StateM W)} {cache : PrefixCache} {w w' : W} {f : Fault}
      {v v' : View} (hv : Retrying v)
      (h : (v.loadImports source cache).run w = ((.error f, v'), w')) : Retrying v'
  | editPrimary {f : Schema → Schema} {v : View} (hv : Retrying v)
      (h : ∀ i ∈ v.primary.imports, i ∈ (f v.primary).imports) : Retrying (v.editPrimary f)

/-- Nothing is left over in such a view. -/
theorem Retrying.imported (hv : v.Retrying) :
    ∀ i ∈ v.registry.keys, i = v.registry.key ∨ v.registry.Imported i := by
  induction hv with
  | ofSchema s config =>
    intro i hi
    exact .inl (List.mem_singleton.1 hi)
  | failed _ h ih =>
    obtain ⟨hkey, hkeys, hgrown⟩ := mem_keys_of_failed_loadImports h
    intro i hi
    rw [hkey]
    rcases hkeys i hi with hi | hi
    · exact (ih i hi).imp id (hgrown i)
    · exact .inr hi
  | @editPrimary f v _ h ih =>
    intro i hi
    refine (ih i hi).imp id fun himported => himported.mono h ?_
    intro j d hd
    refine ⟨_, Registry.document?_editPrimary hd, ?_⟩
    intro k hk
    split
    · rename_i hj
      rw [hj, Registry.document?_key, Option.some.injEq] at hd
      rw [← hd] at hk ⊢
      exact h k hk
    · exact hk

/-- **Loaded imports are registered, and what was left over stays.** A load that takes a view from
unloaded to loaded leaves the key of the primary document and its imports as they were. The registry
then holds what it held before and every reference that is imported, as the documents are now. These
are the primary document and what is imported and nothing else exactly if nothing else was
registered before, and so after any number of failed loads and of edits that took no import
back. -/
theorem loadImports_registers (hloaded : v.loaded = false)
    (h : (v.loadImports source cache).run w = ((.ok (), v'), w')) :
    v'.loaded = true ∧ v'.registry.key = v.registry.key ∧
      v'.primary.imports = v.primary.imports ∧
      (∀ i, i ∈ v'.registry.keys ↔ i ∈ v.registry.keys ∨ v'.registry.Imported i) ∧
      ((∀ i, i ∈ v'.registry.keys ↔ i = v.registry.key ∨ v'.registry.Imported i) ↔
        ∀ i ∈ v.registry.keys, i = v.registry.key ∨ v'.registry.Imported i) ∧
      (v.Retrying → ∀ i, i ∈ v'.registry.keys ↔ i = v.registry.key ∨ v'.registry.Imported i) := by
  obtain ⟨hkey, himports, hkeys, hgrown⟩ := mem_keys_of_loadImports hloaded h
  have hprimary : v.registry.key ∈ v.registry.keys := List.mem_cons_self
  have hexact : (∀ i, i ∈ v'.registry.keys ↔ i = v.registry.key ∨ v'.registry.Imported i) ↔
      ∀ i ∈ v.registry.keys, i = v.registry.key ∨ v'.registry.Imported i := by
    constructor
    · intro hall i hi
      exact (hall i).1 ((hkeys i).2 (.inl hi))
    · intro hbefore i
      rw [hkeys]
      constructor
      · rintro (hi | hi)
        · exact hbefore i hi
        · exact .inr hi
      · rintro (rfl | hi)
        · exact .inl hprimary
        · exact .inr hi
  have hloaded' := (loaded_of_loadImportsWithin (loadImports_eq_ok_iff.1 h)).1
  refine ⟨hloaded', hkey, himports, hkeys, hexact, ?_⟩
  intro hv
  exact hexact.2 fun i hi => (hv.imported i hi).imp id (hgrown i)

/-- A source of empty documents. -/
def emptyDocuments (locations : List String) : Source (StateM Unit) :=
  .ofTable <| Table.ofList <| locations.map fun l => (l, .text "\x7b\x7d")

/-- A view of a document with two imports. -/
def unsearched : View := ofSchema { name := "p", imports := ["a.json", "b.json"] } {}

/-- The view after a search that has found the second import and missed the first. -/
def halfSearched : View := ((unsearched.loadImports (emptyDocuments ["b.json"]) ∅).run ()).1.2

theorem retrying_halfSearched : halfSearched.Retrying := by
  have hfailed : ((unsearched.loadImports (emptyDocuments ["b.json"]) ∅).run ()).1.1.isOk =
      false := by decide +kernel
  cases hrun : (unsearched.loadImports (emptyDocuments ["b.json"]) ∅).run () with
  | mk a w =>
    obtain ⟨r, v⟩ := a
    have hv : halfSearched = v := by
      unfold halfSearched
      rw [hrun]
    rw [hrun] at hfailed
    cases r with
    | ok _ => cases hfailed
    | error f =>
      rw [hv]
      exact .failed (.ofSchema _ _) hrun

/-- The view after an edit that renames its primary document. -/
def halfRenamed : View := halfSearched.editPrimary fun s => { s with name := "q" }

/-- The view after an edit that takes back both imports. -/
def halfAbandoned : View := halfSearched.editPrimary fun s => { s with imports := [] }

/-- A view that is searched again after an edit that takes back no import holds what it imports:
the import that was missed comes behind the one that was found first. -/
theorem loadImports_registers_renamed :
    halfRenamed.Retrying ∧ halfRenamed.loaded = false ∧
      ∃ v', (halfRenamed.loadImports (emptyDocuments ["a.json", "b.json"]) ∅).run () =
          ((.ok (), v'), ()) ∧
        v'.registry.keys = ["p", "b.json", "a.json"] ∧
        ∀ i, i ∈ v'.registry.keys ↔ i = halfRenamed.registry.key ∨ v'.registry.Imported i := by
  have hview : halfRenamed.Retrying := .editPrimary retrying_halfSearched fun i hi => hi
  have hloaded : halfRenamed.loaded = false := by decide +kernel
  have hend : ((halfRenamed.loadImports (emptyDocuments ["a.json", "b.json"]) ∅).run ()).1.1.isOk =
        true ∧
      ((halfRenamed.loadImports (emptyDocuments ["a.json", "b.json"]) ∅).run ()).1.2.registry.keys =
        ["p", "b.json", "a.json"] := by decide +kernel
  refine ⟨hview, hloaded, ?_⟩
  cases hrun : (halfRenamed.loadImports (emptyDocuments ["a.json", "b.json"]) ∅).run () with
  | mk a w =>
    obtain ⟨r, v'⟩ := a
    rw [hrun] at hend
    obtain ⟨hok, hkeys⟩ := hend
    cases r with
    | error f => cases hok
    | ok _ =>
      obtain ⟨_, _, _, _, _, hall⟩ := loadImports_registers hloaded hrun
      exact ⟨v', rfl, hkeys, hall hview⟩

/-- After an edit that takes back both imports the one that was found stays registered, though
nothing is imported. -/
theorem loadImports_keeps_abandoned :
    ∃ v', (halfAbandoned.loadImports (emptyDocuments []) ∅).run () = ((.ok (), v'), ()) ∧
      v'.registry.keys = ["p", "b.json"] ∧ ∀ i, ¬ v'.registry.Imported i := by
  have hend : ((halfAbandoned.loadImports (emptyDocuments []) ∅).run ()).1.1.isOk = true ∧
      ((halfAbandoned.loadImports (emptyDocuments []) ∅).run ()).1.2.registry.keys =
        ["p", "b.json"] ∧
      ((halfAbandoned.loadImports (emptyDocuments []) ∅).run ()).1.2.registry.primary.imports =
        [] := by decide +kernel
  cases hrun : (halfAbandoned.loadImports (emptyDocuments []) ∅).run () with
  | mk a w =>
    obtain ⟨r, v'⟩ := a
    rw [hrun] at hend
    obtain ⟨hok, hkeys, himports⟩ := hend
    cases r with
    | error f => cases hok
    | ok _ =>
      refine ⟨v', rfl, hkeys, ?_⟩
      intro i hi
      induction hi with
      | primary h =>
        rw [himports] at h
        cases h
      | follow _ _ _ ih => exact ih

end View

end SlotFrame
