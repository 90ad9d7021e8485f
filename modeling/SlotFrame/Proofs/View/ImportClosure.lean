import Mathlib.Data.Set.Finite.Lattice
import SlotFrame.Proofs.View.SearchOrder

/-! # The closure of imports is a depth-first search

To load the imports of a view that holds its primary document alone is to search them depth-first.
The search ends exactly when it reaches finitely many references.

Main definition: `View.reached`.

Main statements: `View.exists_run_loadImportsWithin`, `View.reached_finite` and
`View.Reachable.loadImports_depthFirst`. -/

namespace SlotFrame.View

/-- The references that the documents import which a search registers within a limit. -/
def importsWithin (v : View) (source : Source Id) (cache : PrefixCache) (limit : Nat) :
    List String :=
  ((v.loadImportsWithin limit source cache : Option (Result Unit) × View).2.registry.documents
    true).flatMap Schema.imports

/-- The references that a search reaches, however far it is allowed to go. -/
def reached (v : View) (source : Source Id) (cache : PrefixCache) : Set String :=
  { i | ∃ limit, i ∈ v.importsWithin source cache limit }

variable {source : Source Id} {cache : PrefixCache} {c : Config} {kept : Registry → PrefixCache}
  {v v' : View} {log : List Location} {limit : Nat}

/-! ### The first step -/

/-- The search turns first to the primary document, which is registered. -/
theorem run_searchImports_importSearch (v : View) (log : List Location) :
    (searchImports source.recording cache (limit + 1) v.importSearch v).run log =
      (searchImports source.recording cache limit
        (ImportSearch.follow {} v.registry.key v.primary.imports) v).run log := by
  have hensure : (v.ensureDocument source.recording cache { v.importSearch with pending := [] }
      v.registry.key).run log = ((.ok (), v), log) :=
    run_ensureDocument_of_contains _ _ log v.registry.contains_key
  have hpending : v.importSearch.pending = [v.registry.key] := rfl
  rw [run_searchImports_unvisited _ _ _ _ _ hpending List.not_mem_nil, hensure, ← v.importsOf_key]
  rfl

theorem waiting_importSearch (hfresh : v.registry.imported = ∅) :
    (ImportSearch.follow {} v.registry.key v.primary.imports).Waiting
      (ownedBy v.registry.key
        (v.primary.imports.reverse.filter fun j => ! v.registry.contains j) ++ []) v.registry := by
  refine ImportSearch.waiting_follow rfl (fun _ _ => rfl) ?_ v.primary.imports
  intro j
  rw [Registry.contains_iff, Registry.keys_of_imported_eq_empty hfresh]

/-- A search that succeeds has a course, and the recursive search of what the primary document
imports finds the same. -/
theorem Expanding.exists_course_of_searchImports (h : Expanding c cache kept v)
    (hfresh : v.registry.imported = ∅)
    (hrun : (View.searchImports source.recording cache (limit + 1) v.importSearch v).run [] =
      ((some (.ok ()), v'), log)) :
    ∃ found, log = found.map Found.location ∧
      Course c.imports source kept limit
        (ImportSearch.follow {} v.registry.key v.primary.imports) v.registry found v'.registry ∧
      DepthFirst (leadsWith c.imports source kept) v.primary v.primary.imports.reverse v.registry
        found v'.registry := by
  rw [run_searchImports_importSearch] at hrun
  have howners : ∀ p ∈ ownedBy v.registry.key
      (v.primary.imports.reverse.filter fun j => ! v.registry.contains j) ++ [],
      v.registry.contains p.2 = true := by
    intro p hp
    rw [List.append_nil] at hp
    obtain ⟨j, _, rfl⟩ := List.mem_map.1 hp
    exact v.registry.contains_key
  obtain ⟨found, hcourse, hlog⟩ := h.exists_course (waiting_importSearch hfresh) howners hrun
  obtain ⟨found₁, found₂, limit₁, s₁, r₁, hfound, _, hs₁, hdfs, hrest⟩ :=
    hcourse.depthFirst (waiting_importSearch hfresh) v.registry.document?_key
  obtain ⟨rfl, rfl⟩ := hrest.eq_of_pending hs₁.pending
  rw [List.append_nil] at hfound
  subst hfound
  exact ⟨found, hlog, hcourse, hdfs.of_filter _ fun j hj => by simpa using hj⟩

/-- A search that succeeds has searched the imports of the primary document. -/
theorem depthFirst_of_searchImports (h : Expanding c cache kept v)
    (hfresh : v.registry.imported = ∅)
    (hrun : (searchImports source.recording cache limit v.importSearch v).run [] =
      ((some (.ok ()), v'), log)) :
    ∃ found, log = found.map Found.location ∧
      DepthFirst (leadsWith c.imports source kept) v.primary v.primary.imports.reverse v.registry
        found v'.registry := by
  cases limit with
  | zero => cases hrun
  | succ limit =>
    obtain ⟨found, hlog, _, hdfs⟩ := h.exists_course_of_searchImports hfresh hrun
    exact ⟨found, hlog, hdfs⟩

/-! ### Ends of a search -/

theorem loadImportsWithin_eq_of_run {r : Option (Result Unit)}
    (h : (v.loadImportsWithin limit source.recording cache).run [] = ((r, v'), log)) :
    v.loadImportsWithin limit source cache = (pure (r, v') : Id (Option (Result Unit) × View)) := by
  obtain ⟨ds, hds⟩ := exists_records_loadImportsWithin source cache limit v
  have hpair := (hds []).symm.trans h
  exact (Prod.mk.inj hpair).1

theorem mem_reached_of_run {r : Option (Result Unit)}
    (hrun : (v.loadImportsWithin limit source.recording cache).run [] = ((r, v'), log))
    {d : Schema} (hd : d ∈ v'.registry.documents true) {i : String} (hi : i ∈ d.imports) :
    i ∈ v.reached source cache := by
  refine ⟨limit, ?_⟩
  unfold importsWithin
  rw [loadImportsWithin_eq_of_run hrun]
  exact List.mem_flatMap.2 ⟨d, hd, hi⟩

theorem mem_reached_of_searchImports (hloaded : v.loaded = false) (limit : Nat) :
    ∀ d ∈ ((searchImports source.recording cache limit v.importSearch v).run
      []).1.2.registry.documents true, ∀ i ∈ d.imports, i ∈ v.reached source cache := by
  intro d hd i hi
  have hrun : (v.loadImportsWithin limit source.recording cache).run [] = _ :=
    run_loadImportsWithin limit hloaded []
  cases hs : (searchImports source.recording cache limit v.importSearch v).run [] with
  | mk a log =>
    obtain ⟨r, v₁⟩ := a
    rw [hs] at hrun hd
    match r with
    | none => exact mem_reached_of_run hrun hd hi
    | some (.error f) => exact mem_reached_of_run hrun hd hi
    | some (.ok _) =>
      -- Tags do not touch what a document imports.
      have htagged : d.tagProvenance d.identity ∈ v₁.tagDocuments.registry.documents true := by
        show _ ∈ (v₁.registry.mapDocuments fun d => d.tagProvenance d.identity).documents true
        rw [Registry.documents_mapDocuments]
        exact List.mem_map_of_mem hd
      exact mem_reached_of_run hrun htagged hi

/-- A search that reaches finitely many references ends. -/
theorem exists_run_loadImportsWithin (hloaded : v.loaded = false)
    (hfinite : (v.reached source cache).Finite) :
    ∃ limit outcome v' log, (v.loadImportsWithin limit source.recording cache).run [] =
      ((some outcome, v'), log) := by
  have hall : ∀ limit, ∀ d ∈ ((searchImports source.recording cache limit v.importSearch v).run
      []).1.2.registry.documents true, ∀ i ∈ d.imports,
        i ∈ v.registry.key :: hfinite.toFinset.toList := by
    intro limit d hd i hi
    refine List.mem_cons_of_mem _ ?_
    rw [Finset.mem_toList, Set.Finite.mem_toFinset]
    exact mem_reached_of_searchImports hloaded limit d hd i hi
  have hkey : ∀ i ∈ v.importSearch.pending, i ∈ v.registry.key :: hfinite.toFinset.toList := by
    intro i hi
    rw [show i = v.registry.key from List.mem_singleton.1 hi]
    exact List.mem_cons_self
  obtain ⟨limit, r, v₁, log, hs⟩ := exists_searchImports _ v.importSearch v [] hkey hall
  have hrun : (v.loadImportsWithin limit source.recording cache).run [] = _ :=
    run_loadImportsWithin limit hloaded []
  rw [hs] at hrun
  match r with
  | .error f => exact ⟨limit, _, _, _, hrun⟩
  | .ok _ => exact ⟨limit, _, _, _, hrun⟩

/-- A search that ends has reached finitely many references. -/
theorem reached_finite {outcome : Result Unit}
    (hrun : (v.loadImportsWithin limit source.recording cache).run [] =
      ((some outcome, v'), log)) : (v.reached source cache).Finite := by
  -- No limit beyond the one that is enough adds to what is reached.
  have hsub : v.reached source cache ⊆
      ⋃ n ∈ { n | n ≤ limit }, { i | i ∈ v.importsWithin source cache n } := by
    rintro i ⟨n, hi⟩
    rw [Set.mem_iUnion₂]
    by_cases hn : n ≤ limit
    · exact ⟨n, hn, hi⟩
    · refine ⟨limit, Nat.le_refl limit, ?_⟩
      have hmore := loadImportsWithin_mono (Nat.le_of_not_le hn) hrun
      unfold importsWithin at hi
      rw [loadImportsWithin_eq_of_run hmore] at hi
      show i ∈ v.importsWithin source cache limit
      unfold importsWithin
      rw [loadImportsWithin_eq_of_run hrun]
      exact hi
  refine Set.Finite.subset ?_ hsub
  exact (Set.finite_le_nat limit).biUnion fun n _ =>
    List.finite_toSet (v.importsWithin source cache n)

/-! ### The closure -/

/-- The prefix maps that a reachable view expands references with: those that are kept now, except
that a table that is remembered was built with those kept then. -/
theorem Reachable.exists_expanding (hv : v.Reachable) (hfresh : v.registry.imported = ∅)
    (cache : PrefixCache) :
    ∃ kept, (v.recalled Memo.namespaces = none → ∀ r, kept r = cache) ∧
      Expanding v.config cache kept v := by
  cases hrec : v.recalled Memo.namespaces with
  | none =>
    refine ⟨fun _ => cache, fun _ _ => rfl, fun _ _ => rfl, hv.coherent, rfl, ?_⟩
    exact ask_namespaces_of_recalled_none hrec cache
  | some t =>
    obtain ⟨hfaithful, ht⟩ := hv.coherent.faithful_of_recalled hrec
    obtain ⟨earlier, hearlier⟩ := hfaithful.namespaces t ht
    refine ⟨fun r => if r.imported.keys = [] then earlier else cache, ?_, ?_, hv.coherent, rfl, ?_⟩
    · intro h
      cases h
    · intro r hr
      exact if_neg hr
    · have hkeys : v.registry.imported.keys = [] := by
        rw [hfresh]
        rfl
      rw [ask_namespaces, hrec, if_pos hkeys, hearlier]

/-- **Loading the imports of a view is a depth-first search that ends.** A view that holds its
primary document alone, over a fixed source that lets the search reach finitely many references,
ends the search with an outcome that no further allowance changes. When it succeeds, the documents
found by the one recursive search are registered behind the primary one in the order of that search,
each under a reference of its own, and each was delivered once. -/
theorem Reachable.loadImports_depthFirst (hv : v.Reachable) (hfresh : v.registry.imported = ∅)
    (hloaded : v.loaded = false) (source : Source Id) (cache : PrefixCache)
    (hfinite : (v.reached source cache).Finite) :
    ∃ enough outcome v' log,
      (∀ limit, enough ≤ limit →
        v.loadImportsWithin limit source cache =
          (pure (some outcome, v') : Id (Option (Result Unit) × View)) ∧
        (v.loadImportsWithin limit source.recording cache).run [] = ((some outcome, v'), log)) ∧
      (enough ≤ importLimit →
        v.loadImports source cache = (pure (outcome, v') : Id (Result Unit × View))) ∧
      (outcome = .ok () → ∃ (kept : Registry → PrefixCache) (found : List Found) (r : Registry),
        (∀ s : Registry, s.imported.keys ≠ [] → kept s = cache) ∧
        (v.recalled Memo.namespaces = none → ∀ s, kept s = cache) ∧
        DepthFirst (leadsWith v.config.imports source kept) v.primary v.primary.imports.reverse
          v.registry found r ∧
        (∀ found' r', DepthFirst (leadsWith v.config.imports source kept) v.primary
          v.primary.imports.reverse v.registry found' r' → found = found' ∧ r = r') ∧
        v'.registry = r.mapDocuments (fun d => d.tagProvenance d.identity) ∧
        v'.registry.keys = v.registry.key :: found.map Found.reference ∧
        v'.registry.keys.Nodup ∧
        log = found.map Found.location) := by
  obtain ⟨enough, outcome, v', log, hrun⟩ := exists_run_loadImportsWithin hloaded hfinite
  have henough : ∀ limit, enough ≤ limit →
      v.loadImportsWithin limit source cache =
        (pure (some outcome, v') : Id (Option (Result Unit) × View)) ∧
      (v.loadImportsWithin limit source.recording cache).run [] = ((some outcome, v'), log) := by
    intro limit hle
    have hmore := loadImportsWithin_mono hle hrun
    exact ⟨loadImportsWithin_eq_of_run hmore, hmore⟩
  refine ⟨enough, outcome, v', log, henough, ?_, ?_⟩
  · intro hle
    unfold View.loadImports
    rw [(henough importLimit hle).1]
    rfl
  · rintro rfl
    obtain ⟨kept, hnone, hexpanding⟩ := hv.exists_expanding hfresh cache
    obtain ⟨v₁, hs, rfl⟩ := searchImports_of_loadImportsWithin hloaded hrun
    obtain ⟨found, hlog, hdfs⟩ := depthFirst_of_searchImports hexpanding hfresh hs
    have hkeys : v₁.tagDocuments.registry.keys = v.registry.key :: found.map Found.reference := by
      show (v₁.registry.mapDocuments _).keys = _
      rw [Registry.keys_mapDocuments, hdfs.keys_eq, Registry.keys_of_imported_eq_empty hfresh]
      rfl
    exact ⟨kept, found, v₁.registry, hexpanding.current, hnone, hdfs,
      fun _ _ h => depthFirst_leadsWith_unique hdfs h, rfl, hkeys, Registry.nodup_keys _, hlog⟩

/-- A view of a document that imports two documents, which import each other and it. -/
def cyclic : View := ofSchema { name := "p", imports := ["b.json", "a.json"] } {}

/-- The two documents. -/
def cyclicSource : Source Id := .ofTable <| Table.ofList
  [("a.json", .text "\x7b\"imports\": [\"b.json\", \"p\"]\x7d"),
    ("b.json", .text "\x7b\"imports\": [\"a.json\"]\x7d")]

/-- Documents that import each other are found once each, the last import of the primary document
first. -/
theorem loadImports_depthFirst_cyclic :
    cyclic.Reachable ∧ cyclic.registry.imported = ∅ ∧ cyclic.loaded = false ∧
      (cyclic.reached cyclicSource ∅).Finite ∧
      ∃ (kept : Registry → PrefixCache) (found : List Found) (r : Registry),
        DepthFirst (leadsWith cyclic.config.imports cyclicSource kept) cyclic.primary
          ["a.json", "b.json"] cyclic.registry found r ∧
        found.map Found.location = [.file "a.json", .file "b.json"] := by
  have hv : cyclic.Reachable := .ofSchema _ _
  have hend : ∃ v', (cyclic.loadImportsWithin 10 cyclicSource.recording ∅).run [] =
      ((some (.ok ()), v'), [.file "a.json", .file "b.json"]) := by
    have h : (((cyclic.loadImportsWithin 10 cyclicSource.recording ∅).run []).1.1,
        ((cyclic.loadImportsWithin 10 cyclicSource.recording ∅).run []).2) =
        (some (.ok ()), [.file "a.json", .file "b.json"]) := by decide +kernel
    obtain ⟨houtcome, hlog⟩ := Prod.mk.inj h
    exact ⟨_, Prod.ext (Prod.ext houtcome rfl) hlog⟩
  obtain ⟨v', hrun⟩ := hend
  have hfinite := reached_finite hrun
  obtain ⟨enough, outcome, v₁, log, hall, _, hsuccess⟩ :=
    hv.loadImports_depthFirst rfl rfl cyclicSource ∅ hfinite
  have hmore := loadImportsWithin_mono (Nat.le_max_right enough 10) hrun
  have hsame := (hall _ (Nat.le_max_left enough 10)).2.symm.trans hmore
  obtain ⟨kept, found, r, _, _, hdfs, _, _, _, _, hlog⟩ := hsuccess (by cases hsame; rfl)
  refine ⟨hv, rfl, rfl, hfinite, kept, found, r, hdfs, ?_⟩
  rw [← hlog]
  cases hsame
  rfl

end SlotFrame.View
