import SlotFrame.Proofs.View.SearchSteps

/-! # Recorded searches

A source that is a fixed function can be made to record the locations whose documents it delivers. A
recorded search does what the search itself does; the record is all that it adds.

Main definitions: `Source.recording`, `Records`.

Main statements: `View.records_loadImport` (a located import is delivered once) and
`View.exists_records_loadImportsWithin` (a recorded search does what the search does). -/

namespace SlotFrame

/-- A fixed source that records the locations whose documents it delivers. -/
def Source.recording (source : Source Id) : Source (StateM (List Location)) where
  contains l := pure (source.contains l)
  deliver l := do
    modify (· ++ [l])
    return source.deliver l

/-- A recording program that does what another does and records some deliveries. -/
def Records {α : Type} (x : StateM (List Location) α) (y : Id α) (delivered : List Location) :
    Prop :=
  ∀ log, x.run log = (y, log ++ delivered)

namespace Records

variable {α β : Type} {x : StateM (List Location) α} {y : Id α} {ds es : List Location}

theorem pure (a : α) : Records (Pure.pure a) (Pure.pure a) [] := by
  intro log
  rw [List.append_nil]
  rfl

theorem bind {f : α → StateM (List Location) β} {g : α → Id β} (hx : Records x y ds)
    (hf : Records (f y) (g y) es) : Records (x >>= f) (y >>= g) (ds ++ es) := by
  intro log
  rw [StateT.run_bind, hx log, ← List.append_assoc]
  exact hf (log ++ ds)

theorem exists_bind {f : α → StateM (List Location) β} {g : α → Id β}
    (hx : ∃ ds, Records x y ds) (hf : ∀ a, ∃ es, Records (f a) (g a) es) :
    ∃ ds, Records (x >>= f) (y >>= g) ds := by
  obtain ⟨ds, hx⟩ := hx
  obtain ⟨es, hf⟩ := hf y
  exact ⟨ds ++ es, hx.bind hf⟩

end Records

/-! ### Resolving -/

namespace ImportConfig

variable (source : Source Id)

theorem records_firstExisting (ls : List Location) :
    Records (firstExisting source.recording ls) (firstExisting source ls) [] := by
  induction ls with
  | nil => exact Records.pure none
  | cons l ls ih =>
    unfold firstExisting
    have hl : Records (source.recording.contains l) (source.contains l) [] := Records.pure _
    refine hl.bind ?_
    split
    · exact Records.pure (some l)
    · exact ih

theorem records_resolve (c : ImportConfig) (expand : String → Result String) (reference : String)
    (importer : Option Location) :
    Records (c.resolve source.recording expand reference importer)
      (c.resolve source expand reference importer) [] := by
  unfold resolve
  split
  · exact Records.pure _
  · split
    · exact Records.pure _
    · split
      · exact Records.pure _
      · refine (records_firstExisting source _).bind ?_
        split <;> exact Records.pure _

/-- Only a reference that has to be expanded is expanded. -/
theorem resolve_congr (c : ImportConfig) {expand expand' : String → Result String}
    {reference : String}
    (h : c.needsExpansion reference = true → expand reference = expand' reference)
    (importer : Option Location) :
    c.resolve source expand reference importer = c.resolve source expand' reference importer := by
  unfold resolve
  split
  · rfl
  · split
    · rename_i hneeds
      rw [h hneeds]
    · rfl

end ImportConfig

/-! ### Loading and searching -/

namespace View

variable (source : Source Id) (cache : PrefixCache)

theorem records_locateImport (v : View) (reference : String) (importer : Option Schema) :
    Records (v.locateImport source.recording cache reference importer)
      (v.locateImport source cache reference importer) [] := by
  unfold locateImport
  split
  · exact Records.pure _
  · exact (ImportConfig.records_resolve source _ _ _ _).bind (Records.pure _)

/-- The deliveries that an import asks for: one, if it is located. -/
def deliveries : Result Location → List Location
  | .ok l => [l]
  | .error _ => []

theorem records_loadImport (v : View) (reference : String) (importer : Option Schema) :
    Records (v.loadImport source.recording cache reference importer)
      (v.loadImport source cache reference importer)
      (deliveries (v.locateImport source cache reference importer).1) := by
  unfold loadImport
  refine (records_locateImport source cache v reference importer).bind ?_
  generalize v.locateImport source cache reference importer = a
  obtain ⟨found, v'⟩ := a
  cases found with
  | error f => exact Records.pure _
  | ok l =>
    intro log
    rfl

theorem exists_records_ensureDocument (v : View) (s : ImportSearch) (reference : String) :
    ∃ ds, Records (v.ensureDocument source.recording cache s reference)
      (v.ensureDocument source cache s reference) ds := by
  unfold ensureDocument
  split
  · exact ⟨[], Records.pure _⟩
  · refine Records.exists_bind ⟨_, records_loadImport source cache v reference _⟩ ?_
    rintro ⟨loaded, v'⟩
    cases loaded with
    | error f => exact ⟨[], Records.pure _⟩
    | ok d => exact ⟨[], Records.pure _⟩

theorem exists_records_searchImports (limit : Nat) (s : ImportSearch) (v : View) :
    ∃ ds, Records (searchImports source.recording cache limit s v)
      (searchImports source cache limit s v) ds := by
  induction limit generalizing s v with
  | zero => exact ⟨[], Records.pure _⟩
  | succ limit ih =>
    unfold searchImports
    split
    · exact ⟨[], Records.pure _⟩
    · dsimp only
      split
      · exact ih _ v
      · refine Records.exists_bind (exists_records_ensureDocument source cache v _ _) ?_
        rintro ⟨r, v'⟩
        cases r with
        | error f => exact ⟨[], Records.pure _⟩
        | ok _ => exact ih _ v'

/-- A recorded search does what the search does. -/
theorem exists_records_loadImportsWithin (limit : Nat) (v : View) :
    ∃ ds, Records (v.loadImportsWithin limit source.recording cache)
      (v.loadImportsWithin limit source cache) ds := by
  unfold loadImportsWithin
  split
  · exact ⟨[], Records.pure _⟩
  · refine Records.exists_bind (exists_records_searchImports source cache limit v.importSearch v) ?_
    rintro ⟨r, v'⟩
    match r with
    | none => exact ⟨[], Records.pure _⟩
    | some (.error f) => exact ⟨[], Records.pure _⟩
    | some (.ok _) => exact ⟨[], Records.pure _⟩

end View

end SlotFrame
