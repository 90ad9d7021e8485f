import SlotFrame.Proofs.Registry.Documents
import SlotFrame.View.Imports

/-! # The recursive search for imports

The documents behind the imports of a document are registered in pre-order, the last import first: a
reference that is registered is passed over, any other is loaded beside the importing document and
registered, and then the imports of what was loaded are searched in the same way before the search
goes on with the next reference.

Main definitions: `LeadsTo`, `leadsWith`, `DepthFirst`.

Main statements: `DepthFirst.unique` and `depthFirst_leadsWith_unique` (a registry allows one such
search), `DepthFirst.entries_eq` (what is found is registered in the order in which it is found). -/

namespace SlotFrame

/-- A reference that a document imports leads to a location, which is looked for beside the document
or got by expanding the reference with a table of prefixes, and from there to another document. -/
def LeadsTo (c : ImportConfig) (source : Source Id) (table : Result Namespaces) (importer : Schema)
    (reference : String) (l : Location) (d : Schema) : Prop :=
  ∃ beside, View.importerLocation reference (some importer) = .ok beside ∧
    c.resolve source (fun s => table >>= fun t => t.uriFor s) reference beside =
      (pure (.ok l) : Id (Result Location)) ∧
    documentOf c.timeout l (source.deliver l) = .ok d

theorem LeadsTo.unique {c : ImportConfig} {source : Source Id} {table : Result Namespaces}
    {importer : Schema} {reference : String} {l l' : Location} {d d' : Schema}
    (h : LeadsTo c source table importer reference l d)
    (h' : LeadsTo c source table importer reference l' d') : l = l' ∧ d = d' := by
  obtain ⟨beside, hb, hl, hd⟩ := h
  obtain ⟨beside', hb', hl', hd'⟩ := h'
  rw [hb, Except.ok.injEq] at hb'
  subst hb'
  have hll : l = l' := Except.ok.inj (hl.symm.trans hl')
  subst hll
  exact ⟨rfl, Except.ok.inj (hd.symm.trans hd')⟩

/-- What references lead to while the documents of a registry are registered: they are expanded with
the prefixes of its documents and the prefix maps that are kept for it. -/
def leadsWith (c : ImportConfig) (source : Source Id) (kept : Registry → PrefixCache)
    (r : Registry) : Schema → String → Location → Schema → Prop :=
  LeadsTo c source (r.namespaces (kept r))

/-- A document that a search has found, with the reference that led to it and where it lies. -/
structure Found where
  reference : String
  location : Location
  document : Schema

/-- The entry that a found document gets. -/
def Found.entry (f : Found) : String × Schema := (f.reference, f.document)

/-- The search that follows the references of an importing document in turn from one registry to
another, with all that it finds; `leads r importer i l d` says that the importer's reference `i`
leads to the document `d` at `l` while the documents of `r` are registered. -/
inductive DepthFirst (leads : Registry → Schema → String → Location → Schema → Prop) :
    Schema → List String → Registry → List Found → Registry → Prop
  | done (importer : Schema) (r : Registry) : DepthFirst leads importer [] r [] r
  | pass {importer : Schema} {i : String} {rest : List String} {r r' : Registry}
      {found : List Found} (registered : r.contains i = true)
      (after : DepthFirst leads importer rest r found r') :
      DepthFirst leads importer (i :: rest) r found r'
  | visit {importer : Schema} {i : String} {rest : List String} {r r₁ r₂ : Registry}
      {l : Location} {d : Schema} {found₁ found₂ : List Found}
      (unregistered : ¬ r.contains i = true) (led : leads r importer i l d)
      (below : DepthFirst leads d d.imports.reverse (r.insert i d unregistered) found₁ r₁)
      (after : DepthFirst leads importer rest r₁ found₂ r₂) :
      DepthFirst leads importer (i :: rest) r (⟨i, l, d⟩ :: (found₁ ++ found₂)) r₂

namespace DepthFirst

variable {leads : Registry → Schema → String → Location → Schema → Prop} {importer : Schema}
  {references : List String} {r r' : Registry} {found : List Found}

/-- References that lead to one document each allow one search. -/
theorem unique
    (hleads : ∀ {r importer i l d l' d'}, leads r importer i l d → leads r importer i l' d' →
      l = l' ∧ d = d')
    (h : DepthFirst leads importer references r found r') {found' : List Found} {r'' : Registry}
    (h' : DepthFirst leads importer references r found' r'') : found = found' ∧ r' = r'' := by
  induction h generalizing found' r'' with
  | done => cases h' with
    | done => exact ⟨rfl, rfl⟩
  | pass hr _ ih => cases h' with
    | pass _ after => exact ih after
    | visit hr' => exact absurd hr hr'
  | visit hr hl _ _ ihbelow ihafter => cases h' with
    | pass hr' => exact absurd hr' hr
    | visit _ hl' below after =>
      obtain ⟨rfl, rfl⟩ := hleads hl hl'
      obtain ⟨rfl, rfl⟩ := ihbelow below
      obtain ⟨rfl, rfl⟩ := ihafter after
      exact ⟨rfl, rfl⟩

/-- Everything that is found is registered behind what was there, in the order of the search. -/
theorem entries_eq (h : DepthFirst leads importer references r found r') :
    r'.entries = r.entries ++ found.map Found.entry := by
  induction h with
  | done => rw [List.map_nil, List.append_nil]
  | pass _ _ ih => exact ih
  | visit hr _ _ _ ihbelow ihafter =>
    rw [ihafter, ihbelow, Registry.entries_insert _ hr, List.map_cons, List.map_append]
    simp only [List.append_assoc, List.cons_append, List.nil_append]
    rfl

theorem keys_eq (h : DepthFirst leads importer references r found r') :
    r'.keys = r.keys ++ found.map Found.reference := by
  unfold Registry.keys
  rw [h.entries_eq, keysOf_append]
  show _ ++ (found.map Found.entry).map Prod.fst = _
  rw [List.map_map]
  rfl

theorem document?_mono (h : DepthFirst leads importer references r found r') {key : String}
    {d : Schema} (hd : r.document? key = some d) : r'.document? key = some d := by
  have hl : lookupKey key r.entries = some d := hd
  unfold Registry.document?
  rw [h.entries_eq, lookupKey_append, hl]
  rfl

theorem contains_mono (h : DepthFirst leads importer references r found r') {key : String}
    (hk : r.contains key = true) : r'.contains key = true := by
  obtain ⟨d, hd⟩ := Option.isSome_iff_exists.1 hk
  exact Option.isSome_iff_exists.2 ⟨d, h.document?_mono hd⟩

/-- References that are registered already may be left out. -/
theorem of_filter (keep : String → Bool) (hdropped : ∀ i, ¬ keep i = true → r.contains i = true)
    (h : DepthFirst leads importer (references.filter keep) r found r') :
    DepthFirst leads importer references r found r' := by
  induction references generalizing r found r' with
  | nil => exact h
  | cons i references ih =>
    by_cases hk : keep i = true
    · rw [List.filter_cons_of_pos hk] at h
      cases h with
      | pass hr after => exact .pass hr (ih hdropped after)
      | visit hr hl below after =>
        refine .visit hr hl below (ih ?_ after)
        intro j hj
        refine below.contains_mono ?_
        rw [Registry.contains_insert_iff]
        exact .inr (hdropped j hj)
    · rw [List.filter_cons_of_neg hk] at h
      exact .pass (hdropped i hk) (ih hdropped h)

end DepthFirst

theorem depthFirst_leadsWith_unique {c : ImportConfig} {source : Source Id}
    {kept : Registry → PrefixCache} {importer : Schema} {references : List String}
    {r r' r'' : Registry} {found found' : List Found}
    (h : DepthFirst (leadsWith c source kept) importer references r found r')
    (h' : DepthFirst (leadsWith c source kept) importer references r found' r'') :
    found = found' ∧ r' = r'' := by
  refine h.unique ?_ h'
  intro r importer i l d l' d' hl hl'
  exact LeadsTo.unique hl hl'

end SlotFrame
