import SlotFrame.Proofs.Import.Course
import SlotFrame.Proofs.View.Recording
import SlotFrame.Proofs.View.Remembering

/-! # The order of a search for imports

A view that searches for imports expands references with a table of prefixes that it may remember.
While it searches, the table is that of the documents registered so far. So every step of the loop
leads to the document that a course says, and a search that succeeds has a course.

Main definition: `View.Expanding`.

Main statements: `View.Expanding.visit` (a step that follows a reference) and
`View.Expanding.exists_course` (the steps of a search that succeeds make up a course). -/

namespace SlotFrame

namespace View

/-! ### Tables of prefixes -/

/-- A view answers twice the same. -/
theorem ask_namespaces_again (v : View) (cache : PrefixCache) :
    ((v.ask (namespaces cache)).2.ask (namespaces cache)).1 = (v.ask (namespaces cache)).1 := by
  rw [ask_namespaces v]
  cases hrec : v.recalled Memo.namespaces with
  | some t =>
    dsimp only
    rw [ask_namespaces, hrec]
  | none =>
    dsimp only
    cases hn : v.registry.namespaces cache with
    | error f =>
      dsimp only
      rw [ask_namespaces, hrec, hn]
    | ok t =>
      have hkept : (v.keep fun m => { m with namespaces := some t }).recalled Memo.namespaces =
          some t := if_pos (epoch_sync _ _)
      dsimp only
      rw [ask_namespaces, hkept]

/-- A view that works under a configuration and expands references with the prefixes of its
documents and the prefix maps kept for them; those are the present ones as soon as a document is
imported. -/
structure Expanding (c : Config) (cache : PrefixCache) (kept : Registry → PrefixCache) (v : View) :
    Prop where
  current : ∀ r : Registry, r.imported.keys ≠ [] → kept r = cache
  coherent : v.Coherent
  config : v.config = c
  table : (v.ask (namespaces cache)).1 = v.registry.namespaces (kept v.registry)

namespace Expanding

variable {c : Config} {cache : PrefixCache} {kept : Registry → PrefixCache} {v v' : View}

theorem expansion (h : Expanding c cache kept v) (i : String) :
    Expanding c cache kept (v.ask (View.expansion cache i)).2 ∧
      (v.ask (View.expansion cache i)).2.registry = v.registry := by
  rw [ask_expansion_snd]
  split
  · have hquiet := quiet_namespaces cache
    have hr := hquiet.registry v
    have hc : (v.ask (namespaces cache)).2.config = v.config := by rw [hquiet.unchanged v]
    refine ⟨⟨h.current, hquiet.coherent h.coherent, hc.trans h.config, ?_⟩, hr⟩
    rw [ask_namespaces_again, hr]
    exact h.table
  · exact ⟨h, rfl⟩

/-- A registered document begins an epoch in which the table is built anew. -/
theorem insert (h : Expanding c cache kept v) {r : Registry} {i : String}
    (hnew : ¬ r.contains i = true) (d : Schema) :
    Expanding c cache kept (v.replace (r.insert i d hnew)) := by
  refine ⟨h.current, h.coherent.replace _, h.config, ?_⟩
  rw [ask_namespaces_of_recalled_none (recalled_replace h.coherent.notAhead _ _)]
  show (r.insert i d hnew).namespaces cache =
    (r.insert i d hnew).namespaces (kept (r.insert i d hnew))
  rw [h.current _ (Registry.imported_insert_ne_nil d hnew)]

end Expanding

/-! ### One import -/

variable {source : Source Id} {cache : PrefixCache} {c : Config} {kept : Registry → PrefixCache}
  {v v' : View} {log log' : List Location}

theorem ask_expansion_fst (v : View) (cache : PrefixCache) (i : String)
    (h : v.config.imports.needsExpansion i = true) (s : String) :
    ((v.ask (expansion cache i)).1 >>= fun e => e s) =
      ((v.ask (namespaces cache)).1 >>= fun t => t.uriFor s) := by
  unfold expansion
  rw [ask_bind, ask_get]
  dsimp only
  rw [if_pos h, ask_bind]
  cases v.ask (namespaces cache) with
  | mk r v' => cases r <;> rfl

/-- An import is located beside the importing document, or with the table of prefixes. -/
theorem Expanding.locateImport (h : Expanding c cache kept v) {i : String} {importer : Schema}
    {l : Location}
    (hrun : v.locateImport source cache i (some importer) =
      (pure (.ok l, v') : Id (Result Location × View))) :
    v' = (v.ask (View.expansion cache i)).2 ∧ ∃ beside,
      importerLocation i (some importer) = .ok beside ∧
      c.imports.resolve source
        (fun s => v.registry.namespaces (kept v.registry) >>= fun t => t.uriFor s) i beside =
        (pure (.ok l) : Id (Result Location)) := by
  unfold View.locateImport at hrun
  cases hb : importerLocation i (some importer) with
  | error f =>
    rw [hb] at hrun
    cases hrun
  | ok beside =>
    rw [hb] at hrun
    have hconfig : (v.ask (View.expansion cache i)).2.config = c := (h.expansion i).1.config
    have hpair : (((v.ask (View.expansion cache i)).2.config.imports.resolve source
        (fun s => (v.ask (View.expansion cache i)).1 >>= fun e => e s) i beside :
          Result Location).mapError (importFault i), (v.ask (View.expansion cache i)).2) =
        (.ok l, v') := hrun
    obtain ⟨hl, hv'⟩ := Prod.mk.inj hpair
    rw [Result.mapError_eq_ok_iff, hconfig] at hl
    refine ⟨hv'.symm, beside, rfl, ?_⟩
    rw [← hl, ← h.table]
    refine ImportConfig.resolve_congr source c.imports ?_ beside
    intro hneeds
    rw [← h.config] at hneeds
    exact (ask_expansion_fst v cache i hneeds i).symm

/-- A loaded import has been located, and its location leads to its document. -/
theorem Expanding.loadImport (h : Expanding c cache kept v) {i : String} {importer d : Schema}
    (hrun : v.loadImport source cache i (some importer) =
      (pure (.ok d, v') : Id (Result Schema × View))) :
    ∃ l, v.locateImport source cache i (some importer) =
        (pure (.ok l, v') : Id (Result Location × View)) ∧
      LeadsTo c.imports source (v.registry.namespaces (kept v.registry)) importer i l d := by
  unfold View.loadImport at hrun
  cases hlocate : (v.locateImport source cache i (some importer) : Result Location × View) with
  | mk found v₁ =>
    rw [hlocate] at hrun
    cases found with
    | error f => cases hrun
    | ok l =>
      have hpair : ((documentOf v₁.config.imports.timeout l (source.deliver l)).mapError
          (loadFault i l), v₁) = (.ok d, v') := hrun
      obtain ⟨hd, rfl⟩ := Prod.mk.inj hpair
      obtain ⟨hv₁, beside, hbeside, hresolve⟩ := h.locateImport hlocate
      have hconfig : v₁.config = c := by
        rw [hv₁]
        exact (h.expansion i).1.config
      rw [Result.mapError_eq_ok_iff, hconfig] at hd
      exact ⟨l, rfl, beside, hbeside, hresolve, hd⟩

/-- A reference that is not registered is loaded with one delivery, and registered. -/
theorem Expanding.ensureDocument (h : Expanding c cache kept v) {s : ImportSearch} {i : String}
    (hnew : ¬ v.registry.contains i = true) {importer : Schema}
    (himporter : (s.askedBy.lookup i).bind v.registry.document? = some importer)
    (hrun : (v.ensureDocument source.recording cache s i).run log = ((.ok (), v'), log')) :
    ∃ l d, LeadsTo c.imports source (v.registry.namespaces (kept v.registry)) importer i l d ∧
      v'.registry = v.registry.insert i d hnew ∧ Expanding c cache kept v' ∧
      log' = log ++ [l] := by
  rw [run_ensureDocument_of_new source.recording cache log hnew, himporter,
    records_loadImport source cache v i (some importer) log] at hrun
  cases hload : (v.loadImport source cache i (some importer) : Result Schema × View) with
  | mk loaded v₁ =>
    rw [hload] at hrun
    cases loaded with
    | error f => cases hrun
    | ok d =>
      obtain ⟨l, hlocate, hleads⟩ := h.loadImport hload
      rw [hlocate] at hrun
      have htriple : ((Except.ok (), v₁.replace (v.registry.insert i d hnew)), log ++ [l]) =
          (((Except.ok (), v'), log') : (Result Unit × View) × List Location) := hrun
      obtain ⟨hv', rfl⟩ := Prod.mk.inj htriple
      obtain ⟨_, rfl⟩ := Prod.mk.inj hv'
      obtain ⟨hv₁, _⟩ := h.locateImport hlocate
      have hexpanding := (h.expansion i).1
      rw [← hv₁] at hexpanding
      exact ⟨l, d, hleads, rfl, hexpanding.insert hnew d, rfl⟩

/-! ### The whole search -/

/-- A step of the loop that follows a reference loads it relative to its owner, and goes on with the
imports of what it has loaded on top. -/
theorem Expanding.visit {limit : Nat} (h : Expanding c cache kept v) {s : ImportSearch}
    {i owner : String} {owned : List (String × String)} {importer : Schema}
    (hs : s.Waiting ((i, owner) :: owned) v.registry) (hi : i ∉ s.visited)
    (hnew : ¬ v.registry.contains i = true)
    (himporter : v.registry.document? owner = some importer)
    (hrun : (View.searchImports source.recording cache (limit + 1) s v).run log =
      ((some (.ok ()), v'), log')) :
    ∃ l d v₁, LeadsTo c.imports source (v.registry.namespaces (kept v.registry)) importer i l d ∧
      v₁.registry = v.registry.insert i d hnew ∧ Expanding c cache kept v₁ ∧
      (View.searchImports source.recording cache limit
        (ImportSearch.follow { s with pending := owned.map Prod.fst } i d.imports) v₁).run
        (log ++ [l]) = ((some (.ok ()), v'), log') := by
  rw [run_searchImports_unvisited _ _ _ _ _ hs.pending hi] at hrun
  cases hensure : (v.ensureDocument source.recording cache
      { s with pending := owned.map Prod.fst } i).run log with
  | mk a log₁ =>
    obtain ⟨r, v₁⟩ := a
    rw [hensure] at hrun
    cases r with
    | error f => cases hrun
    | ok _ =>
      obtain ⟨l, d, hleads, hregistry, hv₁, rfl⟩ :=
        h.ensureDocument hnew (hs.importer hi himporter) hensure
      have hd : v₁.registry.document? i = some d := by
        rw [hregistry]
        exact Registry.document?_insert_self d hnew
      refine ⟨l, d, v₁, hleads, hregistry, hv₁, ?_⟩
      rw [← importsOf_of_document? hd]
      exact hrun

/-- A search that succeeds has a course. -/
theorem Expanding.exists_course (h : Expanding c cache kept v) {s : ImportSearch}
    {owned : List (String × String)} (hs : s.Waiting owned v.registry)
    (howners : ∀ p ∈ owned, v.registry.contains p.2 = true)
    (hrun : (View.searchImports source.recording cache limit s v).run log =
      ((some (.ok ()), v'), log')) :
    ∃ found, Course c.imports source kept limit s v.registry found v'.registry ∧
      log' = log ++ found.map Found.location := by
  induction limit generalizing v log s owned with
  | zero => cases hrun
  | succ limit ih =>
    cases owned with
    | nil =>
      have hp : s.pending = [] := hs.pending
      rw [run_searchImports_nil _ _ _ _ _ hp] at hrun
      cases hrun
      exact ⟨[], .done hp, (List.append_nil _).symm⟩
    | cons p owned =>
      obtain ⟨i, owner⟩ := p
      have hp : s.pending = i :: owned.map Prod.fst := hs.pending
      by_cases hi : i ∈ s.visited
      · rw [run_searchImports_visited _ _ _ _ _ hp hi] at hrun
        obtain ⟨found, hcourse, hlog⟩ :=
          ih h (hs.pass hi) (fun p hp => howners p (List.mem_cons_of_mem _ hp)) hrun
        exact ⟨found, .pass hp hi hcourse, hlog⟩
      · have hnew : ¬ v.registry.contains i = true := fun hc => hi ((hs.visited i).2 hc)
        obtain ⟨importer, himporter⟩ :=
          Registry.exists_document? (howners (i, owner) List.mem_cons_self)
        obtain ⟨l, d, v₁, hleads, hregistry, hv₁, hrun₁⟩ := h.visit hs hi hnew himporter hrun
        have hs₁ := hs.follow d hnew
        rw [← hregistry] at hs₁
        have howners₁ : ∀ p ∈ ownedBy i (d.imports.reverse.filter fun j =>
            ! v₁.registry.contains j) ++ owned, v₁.registry.contains p.2 = true := by
          intro p hp
          rw [hregistry, Registry.contains_insert_iff]
          rcases List.mem_append.1 hp with hp | hp
          · obtain ⟨j, _, rfl⟩ := List.mem_map.1 hp
            exact .inl rfl
          · exact .inr (howners p (List.mem_cons_of_mem _ hp))
        obtain ⟨found, hcourse, hlog⟩ := ih hv₁ hs₁ howners₁ hrun₁
        rw [hregistry] at hcourse
        refine ⟨⟨i, l, d⟩ :: found, .visit hp hi hnew (hs.importer hi himporter) hleads hcourse, ?_⟩
        rw [hlog, List.append_assoc]
        rfl

end View

end SlotFrame
