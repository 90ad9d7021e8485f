import SlotFrame.Proofs.Import.Interruption
import SlotFrame.Proofs.View.SearchOrder

/-! # Attempts at a search for imports

One search would succeed and take a course. Any other attempt takes the same steps, whatever has
been registered before it and whatever cannot be delivered to it, up to the first document that it
neither finds registered nor gets delivered.

Main definition: `View.Attempt` (how an attempt ends).

Main statement: `View.Expanding.attempt` (an attempt follows a course as far as it can). -/

namespace SlotFrame

/-- All that a course finds can be read. -/
theorem Course.reads {c : ImportConfig} {source : Source Id} {kept : Registry → PrefixCache}
    {limit : Nat} {s : ImportSearch} {r r' : Registry} {found : List Found}
    (h : Course c source kept limit s r found r') :
    ∀ f ∈ found, source.reads f.location = true := by
  induction h with
  | done =>
    intro f hf
    cases hf
  | pass _ _ _ ih => exact ih
  | visit _ _ _ _ led _ ih =>
    obtain ⟨_, _, _, hd⟩ := led
    intro f hf
    rcases List.mem_cons.1 hf with rfl | hf
    · exact Source.reads_of_documentOf hd
    · exact ih f hf

/-! ### Registries with some of the documents -/

namespace Registry

variable {r r' : Registry} {f : Found} {ahead : List Found}

theorem contains_of_entries (hf : f ∈ ahead)
    (h : r'.entries = r.entries ++ ahead.map Found.entry) : r'.contains f.reference = true := by
  rw [contains_iff]
  show f.reference ∈ r'.entries.map Prod.fst
  rw [h, List.map_append, List.map_map]
  exact List.mem_append_right _ (List.mem_map_of_mem (f := Prod.fst ∘ Found.entry) hf)

theorem entries_insert_of_entries (hnew : ¬ r.contains f.reference = true)
    (h : r'.entries = r.entries ++ (f :: ahead).map Found.entry) :
    r'.entries = (r.insert f.reference f.document hnew).entries ++ ahead.map Found.entry := by
  rw [h, entries_insert _ hnew, List.append_assoc]
  rfl

theorem document?_of_entries (hnew : ¬ r.contains f.reference = true)
    (h : r'.entries = r.entries ++ (f :: ahead).map Found.entry) :
    r'.document? f.reference = some f.document := by
  unfold document?
  rw [entries_insert_of_entries hnew h, lookupKey_append]
  show ((r.insert f.reference f.document hnew).document? f.reference).or _ = _
  rw [document?_insert_self _ hnew]
  rfl

end Registry

namespace View

variable {source broken : Source Id} {cache : PrefixCache} {c : Config}
  {kept : Registry → PrefixCache} {u : View} {limit : Nat}

/-! ### One step of an attempt -/

theorem exists_loadFault (i : String) (l : Location) (f : Fault) :
    ∃ reason, loadFault i l f = .importFailed i reason := by
  cases f <;> exact ⟨_, rfl⟩

/-- An import that leads to a document is located by any source that knows the same locations. -/
theorem Expanding.locateImport_of_leadsTo (h : Expanding c cache kept u)
    (hb : broken.Interrupts source) {i : String} {importer d : Schema} {l : Location}
    (led : leadsWith c.imports source kept u.registry importer i l d) :
    u.locateImport broken cache i (some importer) =
      (pure (.ok l, (u.ask (View.expansion cache i)).2) : Id (Result Location × View)) := by
  obtain ⟨beside, hbeside, hresolve, _⟩ := led
  have hresolve' : c.imports.resolve broken
      (fun s => (u.ask (View.expansion cache i)).1 >>= fun e => e s) i beside =
      (pure (.ok l) : Id (Result Location)) := by
    rw [ImportConfig.resolve_contains_congr hb.contains, ← hresolve, ← h.table]
    refine ImportConfig.resolve_congr source c.imports ?_ beside
    intro hneeds
    rw [← h.config] at hneeds
    exact ask_expansion_fst u cache i hneeds i
  have hlocate : u.locateImport broken cache i (some importer) =
      (pure (((u.ask (View.expansion cache i)).2.config.imports.resolve broken
        (fun s => (u.ask (View.expansion cache i)).1 >>= fun e => e s) i beside :
          Result Location).mapError (importFault i), (u.ask (View.expansion cache i)).2) :
        Id (Result Location × View)) := by
    unfold View.locateImport
    rw [hbeside]
    rfl
  rw [hlocate, (h.expansion i).1.config, hresolve']
  rfl

/-- Such an import is loaded if its document is delivered. -/
theorem Expanding.loadImport_of_leadsTo (h : Expanding c cache kept u)
    (hb : broken.Interrupts source) {i : String} {importer d : Schema} {l : Location}
    (led : leadsWith c.imports source kept u.registry importer i l d) :
    u.loadImport broken cache i (some importer) =
      (pure ((documentOf c.imports.timeout l (broken.deliver l)).mapError (loadFault i l),
        (u.ask (View.expansion cache i)).2) : Id (Result Schema × View)) := by
  have hload : u.loadImport broken cache i (some importer) =
      (pure ((documentOf (u.ask (View.expansion cache i)).2.config.imports.timeout l
        (broken.deliver l)).mapError (loadFault i l), (u.ask (View.expansion cache i)).2) :
        Id (Result Schema × View)) := by
    unfold View.loadImport
    rw [h.locateImport_of_leadsTo hb led]
    rfl
  rw [hload, (h.expansion i).1.config]

section step

variable (h : Expanding c cache kept u) (hb : broken.Interrupts source) {s : ImportSearch}
  {i : String} {importer d : Schema} {l : Location}
  (himporter : (s.askedBy.lookup i).bind u.registry.document? = some importer)
  (led : leadsWith c.imports source kept u.registry importer i l d)
  (hnew : ¬ u.registry.contains i = true) (log : List Location)

include h hb himporter led hnew

theorem Expanding.ensureDocument_of_reads (hl : broken.reads l = true) :
    ∃ u' log', (u.ensureDocument broken.recording cache s i).run log = ((.ok (), u'), log') ∧
      u'.registry = u.registry.insert i d hnew ∧ Expanding c cache kept u' := by
  have hexpanding := (h.expansion i).1
  have ⟨_, _, _, hd⟩ := led
  rw [← hb.documentOf hl] at hd
  refine ⟨(u.ask (View.expansion cache i)).2.replace (u.registry.insert i d hnew),
    log ++ deliveries (u.locateImport broken cache i (some importer)).1, ?_, rfl,
    hexpanding.insert hnew d⟩
  rw [run_ensureDocument_of_new broken.recording cache log hnew, himporter,
    records_loadImport broken cache u i (some importer), h.loadImport_of_leadsTo hb led, hd]
  rfl

theorem Expanding.ensureDocument_of_not_reads (hl : broken.reads l = false) :
    ∃ reason u' log', (u.ensureDocument broken.recording cache s i).run log =
        ((.error (.importFailed i reason), u'), log') ∧
      u'.registry = u.registry ∧ Expanding c cache kept u' := by
  obtain ⟨hexpanding, hregistry⟩ := h.expansion i
  obtain ⟨f, hf⟩ := Source.exists_fault_of_not_reads hl c.imports.timeout
  obtain ⟨reason, hreason⟩ := exists_loadFault i l f
  refine ⟨reason, (u.ask (View.expansion cache i)).2,
    log ++ deliveries (u.locateImport broken cache i (some importer)).1, ?_, hregistry, hexpanding⟩
  rw [run_ensureDocument_of_new broken.recording cache log hnew, himporter,
    records_loadImport broken cache u i (some importer), h.loadImport_of_leadsTo hb led, hf,
    ← hreason]
  rfl

end step

/-! ### A whole attempt -/

/-- How an attempt ends that begins with a registry and has documents to go through: it stops at the
first one that blocks it, with all before that registered, or it comes to the whole registry. -/
inductive Attempt (start whole : Registry) (found : List Found) (Blocks : Found → Prop) :
    Result Unit → Registry → Prop
  | stopped {before after : List Found} {f : Found} {reason : String} {r : Registry}
      (hfound : found = before ++ f :: after) (passed : ∀ g ∈ before, ¬ Blocks g)
      (blocked : Blocks f) (hentries : r.entries = start.entries ++ before.map Found.entry) :
      Attempt start whole found Blocks (.error (.importFailed f.reference reason)) r
  | finished (passed : ∀ g ∈ found, ¬ Blocks g) :
      Attempt start whole found Blocks (.ok ()) whole

namespace Attempt

variable {start whole middle r : Registry} {found ahead : List Found}
  {Blocks Blocks' : Found → Prop} {outcome : Result Unit}

theorem congr (h : Attempt start whole found Blocks outcome r)
    (hblocks : ∀ f ∈ found, (Blocks f ↔ Blocks' f)) :
    Attempt start whole found Blocks' outcome r := by
  cases h with
  | stopped hfound passed blocked hentries =>
    subst hfound
    refine .stopped rfl ?_ ?_ hentries
    · intro g hg hg'
      exact passed g hg ((hblocks g (List.mem_append_left _ hg)).2 hg')
    · exact (hblocks _ (List.mem_append_right _ List.mem_cons_self)).1 blocked
  | finished passed => exact .finished fun g hg hg' => passed g hg ((hblocks g hg).2 hg')

/-- An attempt may begin earlier, with documents that do not block it. -/
theorem append (h : Attempt middle whole found Blocks outcome r)
    (hpassed : ∀ f ∈ ahead, ¬ Blocks f)
    (hmiddle : middle.entries = start.entries ++ ahead.map Found.entry) :
    Attempt start whole (ahead ++ found) Blocks outcome r := by
  cases h with
  | @stopped before after f reason _ hfound passed blocked hentries =>
    have hsplit : ahead ++ found = (ahead ++ before) ++ f :: after := by
      rw [hfound, List.append_assoc]
    refine .stopped hsplit ?_ blocked ?_
    · intro g hg
      exact (List.mem_append.1 hg).elim (hpassed g) (passed g)
    · rw [hentries, hmiddle, List.map_append, List.append_assoc]
  | finished passed =>
    exact .finished fun g hg => (List.mem_append.1 hg).elim (hpassed g) (passed g)

/-- An attempt that nothing blocks comes to the whole registry. -/
theorem of_unblocked (h : Attempt start whole found Blocks outcome r)
    (hpassed : ∀ f ∈ found, ¬ Blocks f) : outcome = .ok () ∧ r = whole := by
  cases h with
  | stopped hfound _ blocked _ =>
    subst hfound
    exact absurd blocked (hpassed _ (List.mem_append_right _ List.mem_cons_self))
  | finished _ => exact ⟨rfl, rfl⟩

end Attempt

/-- An attempt that begins when some of the documents of a course are registered passes over them
and registers the others as long as they are delivered. -/
theorem Expanding.attempt (hu : Expanding c cache kept u) {s : ImportSearch} {r r' : Registry}
    {found ahead behind : List Found} (h : Course c.imports source kept limit s r found r')
    (hb : broken.Interrupts source) (hfound : found = ahead ++ behind)
    (hentries : u.registry.entries = r.entries ++ ahead.map Found.entry) (log : List Location) :
    ∃ outcome u' log',
      (View.searchImports broken.recording cache limit s u).run log =
        ((some outcome, u'), log') ∧
      Expanding c cache kept u' ∧
      Attempt u.registry r' behind (fun f => broken.reads f.location = false) outcome
        u'.registry := by
  induction h generalizing u ahead behind log with
  | done hp =>
    obtain ⟨rfl, rfl⟩ := List.append_eq_nil_iff.1 hfound.symm
    have hregistry : u.registry = _ := Registry.ext_entries (hentries.trans (List.append_nil _))
    refine ⟨.ok (), u, log, run_searchImports_nil _ _ _ _ _ hp, hu, ?_⟩
    rw [hregistry]
    exact .finished fun g hg => by cases hg
  | pass hp hi _ ih =>
    rw [run_searchImports_visited _ _ _ _ _ hp hi]
    exact ih hu hfound hentries log
  | @visit limit s i rest r r' importer d l found hp hi hnew himporter led _ ih =>
    rw [run_searchImports_unvisited _ _ _ _ _ hp hi]
    cases ahead with
    | cons f ahead =>
      -- The document is registered already.
      obtain ⟨rfl, rfl⟩ := List.cons_eq_cons.1 hfound
      have hdocument := Registry.document?_of_entries hnew hentries
      have hcontains := Registry.contains_of_entries List.mem_cons_self hentries
      rw [run_ensureDocument_of_contains _ _ _ hcontains]
      dsimp only
      rw [importsOf_of_document? hdocument]
      exact ih hu rfl (Registry.entries_insert_of_entries hnew hentries) log
    | nil =>
      -- The registry is the one of the course, and all that comes is unregistered.
      rw [List.nil_append] at hfound
      subst hfound
      obtain rfl : u.registry = r := Registry.ext_entries (hentries.trans (List.append_nil _))
      cases hl : broken.reads l with
      | true =>
        obtain ⟨u₁, log₁, hensure, hinsert, hu₁⟩ :=
          hu.ensureDocument_of_reads hb (s := { s with pending := rest }) himporter led hnew log hl
        have hdocument : u₁.registry.document? i = some d := by
          rw [hinsert]
          exact Registry.document?_insert_self d hnew
        have hentries₁ : u₁.registry.entries =
            (u.registry.insert i d hnew).entries ++ [].map Found.entry := by
          rw [hinsert]
          exact (List.append_nil _).symm
        rw [hensure]
        dsimp only
        rw [importsOf_of_document? hdocument]
        obtain ⟨outcome, u', log', hrun, hu', hattempt⟩ := ih hu₁ rfl hentries₁ log₁
        have hinserted : u₁.registry.entries = u.registry.entries ++ [(i, d)] := by
          rw [hinsert, Registry.entries_insert d hnew]
        have hpassed : ∀ f ∈ [(⟨i, l, d⟩ : Found)], ¬ broken.reads f.location = false := by
          intro f hf
          rw [List.mem_singleton.1 hf, hl]
          exact Bool.noConfusion
        exact ⟨outcome, u', log', hrun, hu', hattempt.append hpassed hinserted⟩
      | false =>
        obtain ⟨reason, u₁, log₁, hensure, hsame, hu₁⟩ :=
          hu.ensureDocument_of_not_reads hb (s := { s with pending := rest }) himporter led hnew
            log hl
        rw [hensure]
        have hfirst : (⟨i, l, d⟩ : Found) :: found = [] ++ ⟨i, l, d⟩ :: found := rfl
        refine ⟨_, u₁, log₁, rfl, hu₁, .stopped hfirst ?_ hl ?_⟩
        · intro g hg
          cases hg
        · rw [hsame]
          exact (List.append_nil _).symm

end View

end SlotFrame
