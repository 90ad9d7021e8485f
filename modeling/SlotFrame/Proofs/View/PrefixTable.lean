import SlotFrame.Proofs.Registry.PrefixTable
import SlotFrame.Proofs.View.Flattening

/-! # The table of prefixes of a view

A view that remembers no table works it out from its documents and the shared maps that are kept at
the time. Folding the imports in begins an epoch that remembers none, and finds the same
declarations in one document.

Main statement: `View.Reachable.namespaces_firstDeclared`. -/

namespace SlotFrame.View

variable {W : Type}

/-- **The first declaration of a prefix stands, and folding keeps it.** Of a view that is loaded and
remembers no table of prefixes the table is told exactly if every declared prefix can be one; else
the fault names the first, in the order of the registry, that cannot. The table maps every declared
prefix to the reference of its earliest declaration, and any other to what the first of the primary
document's shared maps that is kept gives it. Folding the imports in changes neither the table nor
the fault. -/
theorem Reachable.namespaces_firstDeclared {v : View} (hv : v.Reachable) (hloaded : v.loaded = true)
    (hnone : v.recalled Memo.namespaces = none) (cache : PrefixCache) :
    (∀ f, (v.ask (namespaces cache)).1 = .error f ↔ ∃ name,
      v.registry.malformedPrefix? = some name ∧ f = .namespaces ("Invalid NCName: " ++ name)) ∧
    (v.registry.malformedPrefix? = none → ∃ t,
      (v.ask (namespaces cache)).1 = .ok t ∧ v.registry.Tabulates cache t) ∧
    ∀ (source : Source (StateM W)) (kept : PrefixCache) (w : W), ∃ v',
      (v.mergeImports source kept).run w = ((.ok (), v'), w) ∧
        (v'.ask (namespaces cache)).1 = (v.ask (namespaces cache)).1 := by
  rw [ask_namespaces_of_recalled_none hnone]
  refine ⟨fun f => v.registry.namespaces_eq_error_iff cache, v.registry.exists_namespaces cache, ?_⟩
  intro source kept w
  refine ⟨_, mergeImports_of_loaded hloaded source kept w, ?_⟩
  rw [ask_namespaces_of_recalled_none (recalled_replace hv.coherent.notAhead _ _)]
  exact v.registry.namespaces_flatten cache

/-- A document that declares a prefix and imports one that declares it too. -/
def prefixed : View := ofSchema
  { name := "p"
    imports := ["x.json"]
    prefixes := Table.ofList [("ex", .simple "http://p.org/")]
    defaultPrefix := some "ex"
    defaultCuriMaps := ["m"] }
  {}

/-- The imported document. -/
def prefixedSource : Source (StateM Unit) := .ofTable <| Table.ofList
  [("x.json", .text ("\x7b\"prefixes\": \x7b\"ex\": \"http://x.org/\", " ++
    "\"y\": \"http://y.org/\"\x7d\x7d"))]

/-- A shared map that also has a prefix of the imported document. -/
def prefixedMaps : PrefixCache := Table.ofList
  [("m", Table.ofList [("y", .text "http://m.org/y/"),
    ("z", .record [("@id", .text "http://m.org/z/")])])]

/-- The view of both documents. -/
def prefixedLoaded : View := ((prefixed.loadImports prefixedSource ∅).run ()).1.2

theorem reachable_prefixedLoaded : prefixedLoaded.Reachable :=
  .loadImports prefixedSource ∅ () (.ofSchema _ _)

/-- Of a prefix that two documents declare the first reference stands, and a prefix of the map only
where no document declares it; so it is still when the documents have been folded. -/
theorem namespaces_firstDeclared_prefixed :
    prefixedLoaded.Reachable ∧ prefixedLoaded.loaded = true ∧
      prefixedLoaded.recalled Memo.namespaces = none ∧
      prefixedLoaded.registry.keys = ["p", "x.json"] ∧
      ∃ t, (prefixedLoaded.ask (namespaces prefixedMaps)).1 = .ok t ∧
        t.entries.get? "ex" = some "http://p.org/" ∧
        t.entries.get? "y" = some "http://y.org/" ∧
        t.entries.get? "z" = some "http://m.org/z/" ∧
        t.default? = some "http://p.org/" ∧
        ∃ v', (prefixedLoaded.mergeImports prefixedSource ∅).run () = ((.ok (), v'), ()) ∧
          (v'.ask (namespaces prefixedMaps)).1 = .ok t := by
  have hview : prefixedLoaded.loaded = true ∧
      (prefixedLoaded.recalled Memo.namespaces).isNone = true ∧
      prefixedLoaded.registry.keys = ["p", "x.json"] ∧
      prefixedLoaded.registry.malformedPrefix? = none := by decide +kernel
  obtain ⟨hloaded, hrecalled, hkeys, hwell⟩ := hview
  have hnone := Option.isNone_iff_eq_none.1 hrecalled
  obtain ⟨_, htable, hmerge⟩ :=
    reachable_prefixedLoaded.namespaces_firstDeclared hloaded hnone prefixedMaps
  obtain ⟨t, hask, ht⟩ := htable hwell
  obtain ⟨v', hrun, hsame⟩ := hmerge prefixedSource ∅ ()
  refine ⟨reachable_prefixedLoaded, hloaded, hnone, hkeys, t, hask, ?_, ?_, ?_, ?_, v', hrun,
    hsame.trans hask⟩
  · rw [ht.prefixes "ex" (by decide +kernel)]
    decide +kernel
  · rw [ht.prefixes "y" (by decide +kernel)]
    decide +kernel
  · rw [ht.prefixes "z" (by decide +kernel)]
    decide +kernel
  · rw [ht.default]
    decide +kernel

end SlotFrame.View
