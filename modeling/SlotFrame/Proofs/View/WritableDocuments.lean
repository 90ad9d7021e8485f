import SlotFrame.Proofs.Registry.Writable
import SlotFrame.Proofs.View.ImportedDocuments

/-! # Loaded documents can be written

Whatever document a delivery holds has been decoded, so it can be written and read again, but for
limits of null. A view of a file begins with such a document, and a search for imports registers
such documents alone, so all the documents of a view are writable once its imports are loaded.

Main statements: `Delivered.writable`, `View.forall_documents_searchImports` (what all delivered
documents have, all documents of a search have), `View.writable_of_load` and
`View.writable_loadImports`. -/

namespace SlotFrame

/-! ### What is read -/

theorem Schema.writable_of_read {f : Format} {text : String} {s : Schema}
    (h : Schema.read f text = .ok s) : s.Writable := by
  unfold read readRaw at h
  cases htree : f.readTree text with
  | error m =>
    rw [htree] at h
    cases h
  | ok t =>
    rw [htree] at h
    dsimp only [bind, Except.bind] at h
    cases hdecode : decode t with
    | error e =>
      rw [hdecode] at h
      cases h
    | ok raw =>
      rw [hdecode] at h
      cases h
      obtain ⟨hraw, _⟩ := yields_trimmed t (False.elim : False → t.FromValue) raw hdecode
      exact Writable.normalize hraw

theorem Delivered.writable {d : Schema} (h : Delivered d) : d.Writable := by
  obtain ⟨timeout, l, delivery, h⟩ := h
  unfold documentOf at h
  split at h
  · cases h
  · cases h
  · split at h
    · rename_i s hs
      cases h
      exact { Schema.writable_of_read hs with }
    · cases h
    · cases h

namespace View

variable {W : Type} {source : Source (StateM W)} {cache : PrefixCache} {v v' : View} {w w' : W}

/-! ### What a search registers -/

/-- What the documents of a view and all documents that the source delivers have, the documents that
a search comes to have. -/
theorem forall_documents_searchImports {P : Schema → Prop} (hP : ∀ d, source.Delivers d → P d)
    {limit : Nat} {s : ImportSearch} {r : Option (Result Unit)}
    (hv : ∀ d ∈ v.registry.documents true, P d)
    (h : (searchImports source cache limit s v).run w = ((r, v'), w')) :
    ∀ d ∈ v'.registry.documents true, P d := by
  obtain ⟨added, hentries, hadded⟩ := entries_searchImports h
  intro d hd
  have hd : d ∈ v'.registry.entries.map Prod.snd := hd
  rw [hentries, List.map_append, List.mem_append] at hd
  rcases hd with hd | hd
  · exact hv d hd
  · obtain ⟨e, he, rfl⟩ := List.mem_map.1 hd
    exact hP e.2 (hadded e he)

/-! ### Views of files -/

theorem writable_of_load {path : String} {config : Config}
    (h : (View.load source path config).run w = (.ok v, w')) : v.registry.Writable := by
  obtain ⟨s, hs, rfl⟩ := exists_delivered_of_load h
  intro d hd
  obtain rfl := List.mem_singleton.1 hd
  exact Schema.Writable.normalize hs.writable

/-- The documents of a view can be written once its imports are loaded. -/
theorem writable_loadImports (hv : v.registry.Writable)
    (h : (v.loadImports source cache).run w = ((.ok (), v'), w')) : v'.registry.Writable := by
  have hload := loadImports_eq_ok_iff.1 h
  cases hloaded : v.loaded with
  | true =>
    rw [run_loadImportsWithin_of_loaded importLimit hloaded w] at hload
    cases hload
    exact hv
  | false =>
    obtain ⟨v₁, hs, rfl⟩ := searchImports_of_loadImportsWithin hloaded hload
    have hv₁ : v₁.registry.Writable :=
      forall_documents_searchImports (fun _ hd => hd.delivered.writable) hv hs
    exact hv₁.mapDocuments fun d hd => hd.tagProvenance d.identity

end View

end SlotFrame
