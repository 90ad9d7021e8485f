import SlotFrame.Proofs.Registry.Shelf
import SlotFrame.Proofs.Schema.Provenance
import SlotFrame.Proofs.View.ImportedDocuments

/-! # The primary document is never lost

The registry of a view that operations lead to is a shelf that single changes lead to, so its
primary document can be read and edited and its imports folded in without a fault. A load of
imports, also one that fails, neither renames nor replaces the primary document: all that it may do
is fill in provenances that are missing.

Main definition: `View.PrimaryKept`.

Main statements: `View.Reachable.shelved`, `View.primaryKept_loadImports` and
`View.Reachable.primary_stays`. -/

namespace SlotFrame.View

/-! ### Views as shelves -/

theorem shelved_writeAll {s : Schema} {r : Registry} (hr : Shelf.Reachable s r.shelf)
    (slots : List (String × List SlotDef)) : Shelf.Reachable s (r.writeAll slots).shelf := by
  induction slots generalizing r with
  | nil => exact hr
  | cons e slots ih =>
    refine ih (r := r.writeAttributes e.1 e.2) ?_
    rw [Registry.shelf_writeAttributes]
    exact hr.writeAttributes e.1 e.2

/-- Every change of a view is a change of its shelf. -/
theorem stable_shelved : Stable fun v => ∃ s, Shelf.Reachable s v.registry.shelf where
  ask {_ q} hq {v} hv := by
    rw [hq.quiet.registry v]
    exact hv
  insert {reference} d {v} hnew hv := by
    show ∃ s, Shelf.Reachable s (v.registry.insert reference d hnew).shelf
    rw [Registry.shelf_insert]
    exact hv.imp fun _ h => h.register d hnew
  editPrimary f {v} hv := hv.imp fun _ h => h.edit (v.registry.shelf_editPrimary f)
  writeAll slots {_} hv := hv.imp fun _ h => shelved_writeAll h slots
  tagDocuments {v} hv := by
    show ∃ s, Shelf.Reachable s (v.registry.mapDocuments fun d => d.tagProvenance d.identity).shelf
    rw [Registry.shelf_tag]
    exact hv.imp fun _ h => h.tag
  flatten {v} hv := hv.imp fun _ h => h.fold v.registry.shelf_flatten
  advance hv := hv

/-- The registry of every view that operations lead to is a shelf that changes of one document lead
to. -/
theorem Reachable.shelved {v : View} (hv : v.Reachable) :
    ∃ s, Shelf.Reachable s v.registry.shelf := by
  refine hv.induct stable_shelved fun s config => ⟨s, ?_⟩
  show Shelf.Reachable s (Registry.ofSchema s).shelf
  rw [Registry.shelf_ofSchema]
  exact .ofSchema

/-- The view of a document in a file. -/
theorem reachable_of_load {W : Type} {source : Source (StateM W)} {path : String}
    {config : Config} {v : View} {w w' : W}
    (h : (View.load source path config).run w = (.ok v, w')) : v.Reachable := by
  obtain ⟨s, _, rfl⟩ := exists_delivered_of_load h
  exact .ofSchema s config

/-! ### What a load leaves of the primary document -/

/-- A view with the primary document of another, in which at most missing provenances have been
filled in. -/
structure PrimaryKept (v v' : View) : Prop where
  key : v'.registry.key = v.registry.key
  untagged : v'.primary.untag = v.primary.untag
  provenances : v'.primary.provenances = v.primary.provenances ∨
    v'.primary.provenances = v.primary.provenances.map (fillProvenance v.primary.identity)

variable {W : Type} {source : Source (StateM W)} {cache : PrefixCache} {v u v' : View} {w w' : W}
  {r : Result Unit}

theorem PrimaryKept.of_eq (hkey : u.registry.key = v.registry.key)
    (hprimary : u.primary = v.primary) : PrimaryKept v u where
  key := hkey
  untagged := by rw [hprimary]
  provenances := .inl (by rw [hprimary])

theorem PrimaryKept.tagDocuments (hkey : u.registry.key = v.registry.key)
    (hprimary : u.primary = v.primary) : PrimaryKept v u.tagDocuments := by
  have htagged : u.tagDocuments.primary = v.primary.tagProvenance v.primary.identity := by
    rw [← hprimary]
    rfl
  refine ⟨hkey, ?_, .inr ?_⟩
  · rw [htagged]
    exact Schema.untag_tagProvenance _ v.primary
  · rw [htagged]
    exact Schema.provenances_tagProvenance _ v.primary

/-- A load of imports, whether it fails or not, leaves the primary document but for missing
provenances. -/
theorem primaryKept_loadImports (h : (v.loadImports source cache).run w = ((r, u), w')) :
    PrimaryKept v u := by
  have hkept := (searching_primary v.registry.key v.primary).searchImports source cache
    importLimit v.importSearch w ⟨rfl, rfl⟩
  cases r with
  | error f =>
    obtain ⟨_, r, hs⟩ := searchImports_of_failed_loadImports h
    rw [hs] at hkept
    exact .of_eq hkept.1 hkept.2
  | ok _ =>
    cases hloaded : v.loaded with
    | true =>
      have hsame := loadImports_eq_ok_iff.1 h
      rw [run_loadImportsWithin_of_loaded importLimit hloaded w] at hsame
      cases hsame
      exact .of_eq rfl rfl
    | false =>
      obtain ⟨v₁, hs, rfl⟩ := searchImports_of_loadImportsWithin hloaded (loadImports_eq_ok_iff.1 h)
      rw [hs] at hkept
      exact .tagDocuments hkept.1 hkept.2

theorem mergeImports_of_failed_loadImports {f : Fault}
    (h : (v.loadImports source cache).run w = ((.error f, u), w')) :
    (v.mergeImports source cache).run w = ((.error f, u), w') := by
  unfold mergeImports
  rw [StateT.run_bind, h]
  rfl

/-- **The primary document is never lost.** The registry of every view that operations lead to is a
shelf that begins with its primary document, under the key that it was given first, so the primary
document can be read and edited. A load of imports, with whatever outcome, changes neither that key
nor the primary document but for missing provenances. If it succeeds, the imports are folded in
without a fault; else the fault is that of the load. -/
theorem Reachable.primary_stays (hv : v.Reachable) :
    (∃ s, Shelf.Reachable s v.registry.shelf ∧ v.registry.shelf.key = Registry.keyOf s) ∧
      v.registry.shelf.Held ∧
      v.registry.shelf.primary? = some v.primary ∧
      (∀ f, v.registry.shelf.edit? f = some (v.editPrimary f).registry.shelf) ∧
      ∀ {W : Type} (source : Source (StateM W)) (cache : PrefixCache) (w w' : W)
        (r : Result Unit) (u : View), (v.loadImports source cache).run w = ((r, u), w') →
        PrimaryKept v u ∧
          (∀ f, r = .error f → (v.mergeImports source cache).run w = ((.error f, u), w')) ∧
          (r = .ok () → ∃ v', (v.mergeImports source cache).run w = ((.ok (), v'), w') ∧
            u.registry.shelf.fold = .ok v'.registry.shelf) := by
  obtain ⟨s, hs⟩ := hv.shelved
  obtain ⟨hkey, hheld⟩ := hs.held
  refine ⟨⟨s, hs, hkey⟩, hheld, v.registry.primary?_shelf,
    fun f => v.registry.shelf_editPrimary f, ?_⟩
  intro W source cache w w' r u h
  refine ⟨primaryKept_loadImports h, ?_, ?_⟩
  · rintro f rfl
    exact mergeImports_of_failed_loadImports h
  · rintro rfl
    exact ⟨_, mergeImports_eq_ok_iff.2 ⟨u, h, rfl⟩, u.registry.shelf_flatten⟩

/-- A document that declares a class and imports itself and others. -/
def ownText : String :=
  "\x7b\"name\": \"p\", \"imports\": [\"p\", \"a.json\", \"b.json\"], " ++
    "\"classes\": \x7b\"C\": \x7b\x7d\x7d\x7d"

/-- A source that lacks one of the documents that are imported. -/
def lackingSource : Source (StateM Unit) :=
  .ofTable (Table.ofList [("p.json", .text ownText), ("b.json", .text "\x7b\x7d")])

/-- A source of all documents. -/
def wholeSource : Source (StateM Unit) :=
  .ofTable (Table.ofList [("p.json", .text ownText), ("a.json", .text "\x7b\x7d"),
    ("b.json", .text "\x7b\x7d")])

/-- The view of the document in a file. -/
def ownView : View := ((View.load lackingSource "p.json" {}).run ()).1.toOption.getD default

theorem reachable_ownView : ownView.Reachable := by
  have hok : ((View.load lackingSource "p.json" {}).run ()).1.isOk = true := by decide +kernel
  cases hrun : (View.load lackingSource "p.json" {}).run () with
  | mk r w =>
    have hview : ownView = r.toOption.getD default := by
      unfold ownView
      rw [hrun]
    rw [hrun] at hok
    cases r with
    | error f => cases hok
    | ok v =>
      rw [hview]
      exact reachable_of_load hrun

/-- The view after a load that has missed one of the documents, renamed. -/
def renamedView : View :=
  ((ownView.loadImports lackingSource ∅).run ()).1.2.editPrimary fun s => { s with name := "q" }

/-- After a load that failed and an edit that renames it the primary document stands in front under
its first key. The next load fills in where its class comes from, and the imports are folded in. -/
theorem primary_stays_renamed :
    renamedView.Reachable ∧ renamedView.registry.keys = ["p", "b.json"] ∧
      renamedView.primary.name = "q" ∧ renamedView.primary.provenances = [none] ∧
      renamedView.registry.shelf.primary? = some renamedView.primary ∧
      ∃ u v', (renamedView.loadImports wholeSource ∅).run () = ((.ok (), u), ()) ∧
        u.registry.keys = ["p", "b.json", "a.json"] ∧
        PrimaryKept renamedView u ∧ u.primary.provenances = [some "q"] ∧
        (renamedView.mergeImports wholeSource ∅).run () = ((.ok (), v'), ()) ∧
        u.registry.shelf.fold = .ok v'.registry.shelf := by
  have hreach : renamedView.Reachable :=
    .editPrimary _ (.loadImports lackingSource ∅ () reachable_ownView)
  have hend : ((renamedView.loadImports wholeSource ∅).run ()).1.1.isOk = true ∧
      ((renamedView.loadImports wholeSource ∅).run ()).1.2.registry.keys =
        ["p", "b.json", "a.json"] ∧
      ((renamedView.loadImports wholeSource ∅).run ()).1.2.primary.provenances = [some "q"] := by
    decide +kernel
  obtain ⟨_, _, hprimary, _, hload⟩ := hreach.primary_stays
  refine ⟨hreach, by decide +kernel, by decide +kernel, by decide +kernel, hprimary, ?_⟩
  cases hrun : (renamedView.loadImports wholeSource ∅).run () with
  | mk a w =>
    obtain ⟨r, u⟩ := a
    rw [hrun] at hend
    obtain ⟨hok, hkeys, hprovenances⟩ := hend
    cases r with
    | error f => cases hok
    | ok _ =>
      obtain ⟨hkept, _, hmerged⟩ := hload wholeSource ∅ () w (.ok ()) u hrun
      obtain ⟨v', hmerge, hfold⟩ := hmerged rfl
      exact ⟨u, v', rfl, hkeys, hkept, hprovenances, hmerge, hfold⟩

end SlotFrame.View
