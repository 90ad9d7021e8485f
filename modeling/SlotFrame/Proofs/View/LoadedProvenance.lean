import SlotFrame.Proofs.Schema.Provenance
import SlotFrame.Proofs.View.ImportedDocuments

/-! # Provenance of loaded elements

A search for imports leaves the documents of a view alone and adds documents as they were delivered.
Only a search that has come to its end is followed by tagging, which goes through every document and
tags what has no provenance with the identity of that document. Folding moves elements as they are,
so they keep the tags of the documents that they come from.

Main definitions: `FirstTagged`, `Schema.Attributed`.

Main statement: `View.loadImports_tags`. -/

namespace SlotFrame

variable {α : Type}

/-! ### Elements that have been moved -/

/-- Every element of a table comes from the first of some documents that declares it, and is tagged
as an element of that document. -/
def FirstTagged (tagged : Schema → α → α → Prop) (select : Schema → Table α)
    (documents : List Schema) (t : Table α) : Prop :=
  ∀ name e', t.get? name = some e' → ∃ d e,
    (documents.find? fun d => (select d).contains name) = some d ∧
      (select d).get? name = some e ∧ tagged d e e'

/-- Every element of a document comes from the first of some documents that declares it. -/
structure Schema.Attributed (documents : List Schema) (s : Schema) : Prop where
  classes : FirstTagged ClassDef.TaggedIn Schema.classes documents s.classes
  slots : FirstTagged TaggedIn Schema.slots documents s.slots
  types : FirstTagged TaggedIn Schema.types documents s.types
  enums : FirstTagged TaggedIn Schema.enums documents s.enums
  subsets : FirstTagged TaggedIn Schema.subsets documents s.subsets

/-- What is taken from the first of some tagged documents has the tag of that document. -/
theorem FirstDeclared.firstTagged {tagged : Schema → α → α → Prop} {select : Schema → Table α}
    {documents documents' : List Schema} {t : Table α} (h : FirstDeclared t select documents')
    (hdocuments : List.Forall₂ Schema.Tagged documents documents')
    (htagged : ∀ d d', d.Tagged d' → Entrywise (tagged d) (select d).entries (select d').entries) :
    FirstTagged tagged select documents t := by
  intro name e' he
  rw [h.get?] at he
  clear h
  induction hdocuments with
  | nil => cases he
  | @cons d d' documents documents' hd _ ih =>
    have hrel : Option.Rel (tagged d) ((select d).get? name) ((select d').get? name) :=
      (htagged d d' hd).rel_lookupKey name
    rw [List.findSome?_cons] at he
    rw [List.find?_cons, Table.contains]
    cases hname : (select d).get? name with
    | none =>
      -- neither the document nor the tagged one declares the name
      rw [hname] at hrel
      cases hname' : (select d').get? name with
      | some e => rw [hname'] at hrel; cases hrel
      | none =>
        rw [hname'] at he
        exact ih he
    | some e =>
      rw [hname] at hrel
      cases hname' : (select d').get? name with
      | none => rw [hname'] at hrel; cases hrel
      | some e'' =>
        rw [hname'] at hrel he
        cases he
        cases hrel with
        | some htag => exact ⟨d, e, rfl, hname, htag⟩

/-- What is folded from tagged documents comes from them. -/
theorem Schema.Folded.attributed {s primary : Schema} {documents documents' : List Schema}
    (h : s.Folded primary documents')
    (hdocuments : List.Forall₂ Schema.Tagged documents documents') : s.Attributed documents where
  classes := h.classes.firstTagged hdocuments fun _ _ hd => hd.classes
  slots := h.slots.firstTagged hdocuments fun _ _ hd => hd.slots
  types := h.types.firstTagged hdocuments fun _ _ hd => hd.types
  enums := h.enums.firstTagged hdocuments fun _ _ hd => hd.enums
  subsets := h.subsets.firstTagged hdocuments fun _ _ hd => hd.subsets

theorem Registry.tagged_mapDocuments (r : Registry) :
    Entrywise Schema.Tagged r.entries
      (r.mapDocuments fun d => d.tagProvenance d.identity).entries :=
  .map Schema.tagged_tagProvenance r.entries

namespace View

variable {W : Type} {source : Source (StateM W)} {cache : PrefixCache} {v v' : View} {w w' : W}

/-- **Loading tags every element and nothing else.** A load that takes a view from unloaded to
loaded leaves the documents that were registered in front, and adds documents that the source
delivers. In all of them every class, slot, type, enum, subset and attribute of a class is tagged
with what it was tagged with before, or else with the id of its document, or with the name if the id
is empty; names, their order and everything else are as they were. Folding then asks the source for
nothing more. It takes every element as the first loaded document has it, and so with the tag that
it has there. -/
theorem loadImports_tags (hloaded : v.loaded = false)
    (h : (v.loadImports source cache).run w = ((.ok (), v'), w')) :
    v'.loaded = true ∧ v'.registry.key = v.registry.key ∧
      ∃ added : List (String × Schema), (∀ e ∈ added, source.Delivers e.2) ∧
        Entrywise Schema.Tagged (v.registry.entries ++ added) v'.registry.entries ∧
        ∃ v₂ : View, (v.mergeImports source cache).run w = ((.ok (), v₂), w') ∧
          (∀ {W₂ : Type} (source₂ : Source (StateM W₂)) (cache₂ : PrefixCache) (w₂ : W₂),
            (v'.mergeImports source₂ cache₂).run w₂ = ((.ok (), v₂), w₂)) ∧
          v₂.primary.Folded v'.primary (v'.registry.documents true) ∧
          v₂.primary.Attributed ((v.registry.entries ++ added).map Prod.snd) := by
  obtain ⟨hloaded', hkey, -⟩ := loaded_of_loadImportsWithin (loadImports_eq_ok_iff.1 h)
  obtain ⟨v₁, hs, rfl⟩ := searchImports_of_loadImportsWithin hloaded (loadImports_eq_ok_iff.1 h)
  obtain ⟨added, hentries, hadded⟩ := entries_searchImports hs
  have htagged := v₁.registry.tagged_mapDocuments
  rw [hentries] at htagged
  exact ⟨hloaded', hkey, added, hadded, htagged, _, mergeImports_eq_ok_iff.2 ⟨_, h, rfl⟩,
    mergeImports_of_loaded hloaded', v₁.tagDocuments.registry.flattened_folded,
    v₁.tagDocuments.registry.flattened_folded.attributed htagged.values⟩

/-- A fleet whose quays were declared elsewhere, and which lists its crew in another document. -/
def fleet : View := ofSchema
  { id := "https://example.org/fleet", name := "fleet", imports := ["crew.json"]
    classes := Table.ofList
      [("Ship", { slotUsage := Table.ofList [("length", { required := some true })]
                  attributes := Table.ofList [("flag", {})] }),
       ("Quay", { metadata := { fromSchema := some "harbour" } })] } {}

/-- The crew, in a document without an id. -/
def crewDocument : Source (StateM Unit) :=
  .ofTable <| Table.ofList [("crew.json", .text <| "\x7b\"name\": \"crew\", \"classes\": " ++
    "\x7b\"Ship\": null, \"Sailor\": \x7b\"attributes\": \x7b\"rank\": null\x7d\x7d\x7d\x7d")]

/-- What has no tag is tagged with the id of the fleet or with the name of the crew, which it keeps
when it is folded in; the quays keep the tag that they had, and what is said of lengths gets none.
-/
theorem loadImports_tags_fleet :
    ∃ v' v₂ : View, (fleet.loadImports crewDocument ∅).run () = ((.ok (), v'), ()) ∧
      (fleet.mergeImports crewDocument ∅).run () = ((.ok (), v₂), ()) ∧
      (∃ added, (∀ e ∈ added, crewDocument.Delivers e.2) ∧
        Entrywise Schema.Tagged (fleet.registry.entries ++ added) v'.registry.entries ∧
        v₂.primary.Attributed ((fleet.registry.entries ++ added).map Prod.snd)) ∧
      (v'.registry.documents true).map Schema.provenances =
        [[some "https://example.org/fleet", some "https://example.org/fleet", some "harbour"],
         [some "crew", some "crew", some "crew"]] ∧
      (v'.primary.classes.values.flatMap fun c => provenancesOf c.slotUsage) = [none] ∧
      v₂.primary.classes.keys = ["Ship", "Quay", "Sailor"] ∧
      v₂.primary.provenances = [some "https://example.org/fleet", some "https://example.org/fleet",
        some "harbour", some "crew", some "crew"] := by
  have hend : ((fleet.loadImports crewDocument ∅).run ()).1.1.isOk = true ∧
      (((fleet.loadImports crewDocument ∅).run ()).1.2.registry.documents true).map
        Schema.provenances =
        [[some "https://example.org/fleet", some "https://example.org/fleet", some "harbour"],
         [some "crew", some "crew", some "crew"]] ∧
      (((fleet.loadImports crewDocument ∅).run ()).1.2.primary.classes.values.flatMap
        fun c => provenancesOf c.slotUsage) = [none] := by decide +kernel
  have hfolded : ((fleet.mergeImports crewDocument ∅).run ()).1.2.primary.classes.keys =
        ["Ship", "Quay", "Sailor"] ∧
      ((fleet.mergeImports crewDocument ∅).run ()).1.2.primary.provenances =
        [some "https://example.org/fleet", some "https://example.org/fleet", some "harbour",
         some "crew", some "crew"] := by decide +kernel
  cases hrun : (fleet.loadImports crewDocument ∅).run () with
  | mk a w =>
    obtain ⟨r, v'⟩ := a
    rw [hrun] at hend
    obtain ⟨hok, htags, husage⟩ := hend
    cases r with
    | error f => cases hok
    | ok _ =>
      obtain ⟨-, -, added, hadded, htagged, v₂, hmerge, -, -, hattributed⟩ :=
        loadImports_tags rfl hrun
      rw [hmerge] at hfolded
      exact ⟨v', v₂, rfl, hmerge, ⟨added, hadded, htagged, hattributed⟩, htags, husage, hfolded⟩

end View

end SlotFrame
