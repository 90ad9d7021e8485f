import SlotFrame.Proofs.View.Attempts
import SlotFrame.Proofs.View.ImportClosure

/-! # Searches that are taken up again

A search for imports that fails keeps what it has registered. The next one starts anew at the
primary document, finds the documents registered that the failed one has come to, and goes on behind
them. So however often deliveries fail, every attempt follows the course of the one search that
would succeed, and the first one that nothing is kept from comes to the same registry.

Main definitions: `View.Lacks`, `View.Halfway`, `View.Interrupted`.

Main statements: `View.Halfway.loadImports` (an attempt goes on where the others have stopped) and
`View.Reachable.loadImports_resumes`. -/

namespace SlotFrame.View

variable {source broken : Source Id} {cache : PrefixCache} {c : Config}
  {kept : Registry → PrefixCache} {v v' u : View}

/-! ### Limits -/

theorem importLimit_eq : importLimit = importLimit - 1 + 1 :=
  (Nat.sub_add_cancel (Nat.two_pow_pos 62)).symm

theorem loadImports_of_loadImportsWithin {outcome : Result Unit}
    (h : v.loadImportsWithin importLimit source cache =
      (pure (some outcome, v') : Id (Option (Result Unit) × View))) :
    v.loadImports source cache = (pure (outcome, v') : Id (Result Unit × View)) := by
  unfold View.loadImports
  rw [h]
  rfl

theorem loadImportsWithin_of_loadImports
    (h : v.loadImports source cache = (pure (.ok (), v') : Id (Result Unit × View))) :
    v.loadImportsWithin importLimit source cache =
      (pure (some (.ok ()), v') : Id (Option (Result Unit) × View)) := by
  unfold View.loadImports at h
  cases hwithin : (v.loadImportsWithin importLimit source cache : Option (Result Unit) × View) with
  | mk r v₁ =>
    rw [hwithin] at h
    have hpair : (r.getD (.error (.other "too many imports")), v₁) = (.ok (), v') := h
    obtain ⟨hr, rfl⟩ := Prod.mk.inj hpair
    cases r with
    | none => cases hr
    | some r =>
      cases hr
      rfl

/-! ### Attempts in a row -/

/-- A document that is not registered and cannot be read. -/
def Lacks (broken : Source Id) (r : Registry) (f : Found) : Prop :=
  r.contains f.reference = false ∧ broken.reads f.location = false

/-- A view between two attempts: some of the documents of a course are registered, as they were
delivered. -/
structure Halfway (c : Config) (cache : PrefixCache) (kept : Registry → PrefixCache)
    (start : Registry) (found : List Found) (u : View) : Prop where
  expanding : Expanding c cache kept u
  unloaded : u.loaded = false
  registered : ∃ ahead behind, found = ahead ++ behind ∧
    u.registry.entries = start.entries ++ ahead.map Found.entry

/-- The views that attempts lead to which fail over interrupted sources. -/
inductive Interrupted (source : Source Id) (cache : PrefixCache) (v : View) : View → Prop
  | start : Interrupted source cache v v
  | failed {broken : Source Id} {u u' : View} {f : Fault} (hu : Interrupted source cache v u)
      (hb : broken.Interrupts source)
      (h : u.loadImports broken cache = (pure (.error f, u') : Id (Result Unit × View))) :
      Interrupted source cache v u'

theorem searching_unloaded : Searching fun v => v.loaded = false where
  ask hq v hv := by
    rw [hq.quiet.unchanged v]
    exact hv
  insert _ _ _ hv := hv

namespace Halfway

variable {start r' : Registry} {found : List Found}

/-- Of the documents of a course those are registered that come first. -/
theorem exists_behind (h : Halfway c cache kept start found u)
    (hfound : r'.entries = start.entries ++ found.map Found.entry) :
    ∃ ahead behind, found = ahead ++ behind ∧
      u.registry.entries = start.entries ++ ahead.map Found.entry ∧
      (∀ f ∈ ahead, u.registry.contains f.reference = true) ∧
      ∀ f ∈ behind, u.registry.contains f.reference = false := by
  obtain ⟨ahead, behind, rfl, hentries⟩ := h.registered
  refine ⟨ahead, behind, rfl, hentries, fun f hf => Registry.contains_of_entries hf hentries, ?_⟩
  intro f hf
  have hkeys : r'.keys = u.registry.keys ++ behind.map Found.reference := by
    show r'.entries.map Prod.fst = u.registry.entries.map Prod.fst ++ _
    rw [hfound, hentries]
    simp only [List.map_append, List.map_map, List.append_assoc]
    rfl
  have hnodup := r'.nodup_keys
  rw [hkeys, List.nodup_append] at hnodup
  rw [Bool.eq_false_iff, Ne, Registry.contains_iff]
  intro hmem
  exact hnodup.2.2 _ hmem _ (List.mem_map_of_mem hf) rfl

theorem key_primary (h : Halfway c cache kept start found u) :
    u.registry.key = start.key ∧ u.registry.primary = start.primary := by
  obtain ⟨ahead, _, _, hentries⟩ := h.registered
  have hcons : (u.registry.key, u.registry.primary) :: u.registry.imported.entries =
      (start.key, start.primary) :: (start.imported.entries ++ ahead.map Found.entry) := hentries
  exact Prod.mk.inj (List.cons_eq_cons.1 hcons).1

/-- An attempt goes on where the others have stopped, and leaves the next one halfway again if it
fails. -/
theorem loadImports (h : Halfway c cache kept start found u)
    (hcourse : Course c.imports source kept (importLimit - 1)
      (ImportSearch.follow {} start.key start.primary.imports) start found r')
    (hb : broken.Interrupts source) :
    ∃ outcome u',
      u.loadImports broken cache = (pure (outcome, u') : Id (Result Unit × View)) ∧
      (u'.loaded = true ↔ outcome = .ok ()) ∧
      Attempt start (r'.mapDocuments fun d => d.tagProvenance d.identity) found
        (Lacks broken u.registry) outcome u'.registry ∧
      (∀ f, outcome = .error f → Halfway c cache kept start found u') := by
  obtain ⟨ahead, behind, hfound, hentries, hahead, hbehind⟩ := h.exists_behind hcourse.entries_eq
  obtain ⟨hkey, hprimary⟩ := h.key_primary
  obtain ⟨outcome, u₁, log, hrun, hu₁, hattempt⟩ :=
    h.expanding.attempt hcourse hb hfound hentries []
  rw [← hkey, ← hprimary] at hrun
  have hsearch := (run_searchImports_importSearch u []).trans hrun
  rw [← importLimit_eq] at hsearch
  have hunloaded : u₁.loaded = false := by
    have hu := searching_unloaded.searchImports broken.recording cache importLimit u.importSearch []
      h.unloaded
    rw [hsearch] at hu
    exact hu
  have hload : (u.loadImportsWithin importLimit broken.recording cache).run [] = _ :=
    run_loadImportsWithin importLimit h.unloaded []
  rw [hsearch] at hload
  have hlacks : ∀ f ∈ behind, (broken.reads f.location = false ↔ Lacks broken u.registry f) :=
    fun f hf => ⟨fun hl => ⟨hbehind f hf, hl⟩, And.right⟩
  have hpassed : ∀ f ∈ ahead, ¬ Lacks broken u.registry f := by
    rintro f hf ⟨hlacks, _⟩
    rw [hahead f hf] at hlacks
    cases hlacks
  have hwhole := (hattempt.congr hlacks).append hpassed hentries
  rw [← hfound] at hwhole
  cases hwhole with
  | stopped hsplit passed blocked hkept =>
    refine ⟨_, u₁, loadImports_of_loadImportsWithin (loadImportsWithin_eq_of_run hload), ?_,
      .stopped hsplit passed blocked hkept, ?_⟩
    · rw [hunloaded]
      constructor <;> exact fun h => by cases h
    · intro _ _
      exact ⟨hu₁, hunloaded, _, _, hsplit, hkept⟩
  | finished passed =>
    refine ⟨.ok (), u₁.tagDocuments,
      loadImports_of_loadImportsWithin (loadImportsWithin_eq_of_run hload), ?_,
      .finished passed, ?_⟩
    · exact ⟨fun _ => rfl, fun _ => rfl⟩
    · intro f hf
      cases hf

end Halfway

theorem Interrupted.halfway {start r' : Registry} {found : List Found}
    (hu : Interrupted source cache v u) (hv : Halfway c cache kept start found v)
    (hcourse : Course c.imports source kept (importLimit - 1)
      (ImportSearch.follow {} start.key start.primary.imports) start found r') :
    Halfway c cache kept start found u := by
  induction hu with
  | start => exact hv
  | failed _ hb hfailed ih =>
    obtain ⟨outcome, u', hload, _, _, hnext⟩ := ih.loadImports hcourse hb
    obtain ⟨rfl, rfl⟩ := Prod.mk.inj (hfailed.symm.trans hload)
    exact hnext _ rfl

/-! ### From a fresh view -/

/-- **Loads that fail can be taken up again.** A view holds its primary document alone, and its
imports would be loaded from a source; the documents that are found, in the order of the recursive
search, then make up the whole registry. After any number of attempts that have failed because
documents could not be read, an attempt stops at the first document that is neither registered nor
readable: it names the reference of that document, leaves the view unloaded and has registered the
documents before it, untagged. If there is no such document the attempt comes to the whole registry,
and so does every attempt over the source itself. -/
theorem Reachable.loadImports_resumes (hv : v.Reachable) (hfresh : v.registry.imported = ∅)
    (hloaded : v.loaded = false) (source : Source Id) (cache : PrefixCache) {whole : View}
    (hwhole : v.loadImports source cache = (pure (.ok (), whole) : Id (Result Unit × View))) :
    ∃ (kept : Registry → PrefixCache) (found : List Found) (r : Registry),
      (∀ s : Registry, s.imported.keys ≠ [] → kept s = cache) ∧
      (v.recalled Memo.namespaces = none → ∀ s, kept s = cache) ∧
      DepthFirst (leadsWith v.config.imports source kept) v.primary v.primary.imports.reverse
        v.registry found r ∧
      r.entries = v.registry.entries ++ found.map Found.entry ∧
      whole.registry = r.mapDocuments (fun d => d.tagProvenance d.identity) ∧
      ∀ u, Interrupted source cache v u →
        (∀ broken : Source Id, broken.Interrupts source → ∃ outcome u',
          u.loadImports broken cache = (pure (outcome, u') : Id (Result Unit × View)) ∧
          (u'.loaded = true ↔ outcome = .ok ()) ∧
          Attempt v.registry whole.registry found (Lacks broken u.registry) outcome
            u'.registry) ∧
        ∃ u', u.loadImports source cache = (pure (.ok (), u') : Id (Result Unit × View)) ∧
          u'.loaded = true ∧ u'.registry = whole.registry := by
  obtain ⟨kept, hnone, hexpanding⟩ := hv.exists_expanding hfresh cache
  obtain ⟨ds, hds⟩ := exists_records_loadImportsWithin source cache importLimit v
  have hrun := hds []
  rw [loadImportsWithin_of_loadImports hwhole, importLimit_eq] at hrun
  obtain ⟨v₁, hs, rfl⟩ := searchImports_of_loadImportsWithin hloaded hrun
  obtain ⟨found, _, hcourse, hdfs⟩ := hexpanding.exists_course_of_searchImports hfresh hs
  have hstart : Halfway v.config cache kept v.registry found v :=
    ⟨hexpanding, hloaded, [], found, rfl, (List.append_nil _).symm⟩
  refine ⟨kept, found, v₁.registry, hexpanding.current, hnone, hdfs, hdfs.entries_eq, rfl, ?_⟩
  intro u hu
  have hhalfway := hu.halfway hstart hcourse
  constructor
  · intro broken hb
    obtain ⟨outcome, u', hload, hloaded', hends, _⟩ := hhalfway.loadImports hcourse hb
    exact ⟨outcome, u', hload, hloaded', hends⟩
  · obtain ⟨outcome, u', hload, hloaded', hends, _⟩ :=
      hhalfway.loadImports hcourse (Source.Interrupts.refl source)
    have hpassed : ∀ f ∈ found, ¬ Lacks source u.registry f := by
      rintro f hf ⟨_, hlacks⟩
      rw [hcourse.reads f hf] at hlacks
      cases hlacks
    obtain ⟨rfl, hsame⟩ := hends.of_unblocked hpassed
    exact ⟨u', hload, hloaded'.2 rfl, hsame⟩

/-- Of two documents that import each other the second is not delivered at first; an attempt later
comes to what a search without interruption comes to. -/
theorem loadImports_resumes_cyclic :
    cyclic.Reachable ∧ cyclic.registry.imported = ∅ ∧ cyclic.loaded = false ∧
      ∃ whole u u',
        cyclic.loadImports cyclicSource ∅ = (pure (.ok (), whole) : Id (Result Unit × View)) ∧
        cyclic.loadImports (cyclicSource.stalling (.file "b.json")) ∅ =
          (pure (.error (.importFailed "b.json" "b.json: timed out after 30s"), u) :
            Id (Result Unit × View)) ∧
        u.registry.keys = ["p", "a.json"] ∧
        u.loadImports cyclicSource ∅ = (pure (.ok (), u') : Id (Result Unit × View)) ∧
        u'.registry = whole.registry ∧ u'.registry.keys = ["p", "a.json", "b.json"] := by
  have hv : cyclic.Reachable := .ofSchema _ _
  have hwhole : (cyclic.loadImports cyclicSource ∅ : Result Unit × View).1 = .ok () ∧
      (cyclic.loadImports cyclicSource ∅ : Result Unit × View).2.registry.keys =
        ["p", "a.json", "b.json"] := by decide +kernel
  have hfailed : (cyclic.loadImports (cyclicSource.stalling (.file "b.json")) ∅ :
        Result Unit × View).1 = .error (.importFailed "b.json" "b.json: timed out after 30s") ∧
      (cyclic.loadImports (cyclicSource.stalling (.file "b.json")) ∅ :
        Result Unit × View).2.registry.keys = ["p", "a.json"] := by decide +kernel
  cases hw : (cyclic.loadImports cyclicSource ∅ : Result Unit × View) with
  | mk outcome whole =>
    cases hf : (cyclic.loadImports (cyclicSource.stalling (.file "b.json")) ∅ :
        Result Unit × View) with
    | mk failure u =>
      rw [hw] at hwhole
      rw [hf] at hfailed
      obtain ⟨rfl, hkeys⟩ := hwhole
      obtain ⟨rfl, hkeys₁⟩ := hfailed
      obtain ⟨_, _, _, _, _, _, _, _, hall⟩ := hv.loadImports_resumes rfl rfl cyclicSource ∅ hw
      have hu : Interrupted cyclicSource ∅ cyclic u :=
        .failed .start (cyclicSource.interrupts_stalling (.file "b.json")) hf
      obtain ⟨_, u', hload, _, hsame⟩ := hall u hu
      refine ⟨hv, rfl, rfl, whole, u, u', rfl, rfl, hkeys₁, hload, hsame, ?_⟩
      rw [hsame]
      exact hkeys

end SlotFrame.View
