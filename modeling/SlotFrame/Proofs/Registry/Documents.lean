import SlotFrame.Proofs.Data.Tables
import SlotFrame.Registry.Basic

/-! # Registered documents

The documents of a registry stand under distinct keys. A reference that is new is registered behind
all others, which keep their documents. -/

namespace SlotFrame.Registry

variable (r : Registry)

/-- The documents under their keys, in order, determine a registry. -/
theorem ext_entries {r s : Registry} (h : r.entries = s.entries) : r = s := by
  obtain ⟨key, primary, ⟨imported, hn⟩, hf⟩ := r
  obtain ⟨key', primary', ⟨imported', hn'⟩, hf'⟩ := s
  simp only [entries, List.cons.injEq, Prod.mk.injEq] at h
  obtain ⟨⟨rfl, rfl⟩, rfl⟩ := h
  rfl

theorem nodup_keys : r.keys.Nodup := by
  have h := r.fresh
  rw [Bool.eq_false_iff, Ne, Table.contains_iff] at h
  exact List.nodup_cons.2 ⟨h, r.imported.nodup_keys⟩

theorem contains_iff (key : String) : r.contains key = true ↔ key ∈ r.keys := by
  have h := lookupKey_eq_none_iff key r.entries
  unfold contains document?
  rw [← Option.ne_none_iff_isSome, Ne, h, Classical.not_not]
  rfl

variable {r} in
theorem exists_document? {key : String} (h : r.contains key = true) :
    ∃ d, r.document? key = some d := Option.isSome_iff_exists.1 h

theorem document?_key : r.document? r.key = some r.primary := by
  show lookupKey r.key ((r.key, r.primary) :: r.imported.entries) = _
  rw [lookupKey, if_pos rfl]

theorem contains_key : r.contains r.key = true := by
  rw [contains, document?_key]
  rfl

theorem keys_of_imported_eq_empty {r : Registry} (h : r.imported = ∅) : r.keys = [r.key] := by
  unfold keys entries
  rw [h]
  rfl

/-! ### Insertion -/

section insertion

variable {r} {reference : String} (d : Schema) (new : ¬ r.contains reference = true)

@[simp] theorem key_insert : (r.insert reference d new).key = r.key := rfl

@[simp] theorem primary_insert : (r.insert reference d new).primary = r.primary := rfl

theorem entries_insert :
    (r.insert reference d new).entries = r.entries ++ [(reference, d)] := by
  have hmem : reference ∉ r.imported.keys := by
    intro h
    exact new ((r.contains_iff reference).2 (List.mem_cons_of_mem _ h))
  show (r.key, r.primary) :: putKey reference d r.imported.entries = _
  rw [putKey_of_notMem hmem]
  rfl

theorem keys_insert : (r.insert reference d new).keys = r.keys ++ [reference] := by
  unfold keys
  rw [entries_insert, keysOf_append]
  rfl

theorem document?_insert_of_document? {key : String} {e : Schema}
    (h : r.document? key = some e) : (r.insert reference d new).document? key = some e := by
  have he : lookupKey key r.entries = some e := h
  unfold document?
  rw [entries_insert, lookupKey_append, he]
  rfl

theorem document?_insert_self : (r.insert reference d new).document? reference = some d := by
  have hnone : lookupKey reference r.entries = none := by
    rw [lookupKey_eq_none_iff]
    intro hm
    exact new ((r.contains_iff reference).2 hm)
  unfold document?
  rw [entries_insert, lookupKey_append, hnone]
  simp [lookupKey]

theorem contains_insert_iff (key : String) :
    (r.insert reference d new).contains key = true ↔ key = reference ∨ r.contains key = true := by
  rw [contains_iff, keys_insert, List.mem_append, List.mem_singleton, contains_iff, or_comm]

theorem imported_insert_ne_nil : (r.insert reference d new).imported.keys ≠ [] := by
  have hmem : reference ∈ (r.insert reference d new).imported.keys := by
    rw [Table.mem_keys_iff]
    show ((r.imported.insert reference d).get? reference).isSome = true
    rw [Table.get?_insert, if_pos rfl]
    rfl
  exact List.ne_nil_of_mem hmem

/-- Equal registries register a document alike. -/
theorem insert_congr {r' : Registry} (h : r' = r) :
    r'.insert reference d (h ▸ new) = r.insert reference d new := by
  subst h
  rfl

end insertion

/-- A registry that has a document under a reference, and for the rest those of another. -/
structure Gains (r : Registry) (reference : String) (s : Registry) : Prop where
  key : s.key = r.key
  primary : s.primary = r.primary
  document? : ∀ key d, r.document? key = some d → s.document? key = some d
  contains_iff : ∀ key, s.contains key = true ↔ key = reference ∨ r.contains key = true

theorem gains_insert {r : Registry} {reference : String} (d : Schema)
    (new : ¬ r.contains reference = true) : r.Gains reference (r.insert reference d new) where
  key := key_insert d new
  primary := primary_insert d new
  document? _ _ h := document?_insert_of_document? d new h
  contains_iff := contains_insert_iff d new

theorem Gains.refl {r : Registry} {reference : String} (h : r.contains reference = true) :
    r.Gains reference r where
  key := rfl
  primary := rfl
  document? _ _ h := h
  contains_iff key := by
    constructor
    · exact .inr
    · rintro (rfl | hkey)
      · exact h
      · exact hkey

/-! ### Changes of every document -/

theorem keys_mapDocuments (f : Schema → Schema) : (r.mapDocuments f).keys = r.keys := by
  show r.key :: (r.imported.map f).keys = r.key :: r.imported.keys
  rw [Table.map, Table.keys_mapWithKey]

theorem documents_mapDocuments (f : Schema → Schema) :
    (r.mapDocuments f).documents true = (r.documents true).map f := by
  show f r.primary :: (r.imported.map f).values = f r.primary :: r.imported.values.map f
  rw [Table.values_map]

theorem document?_mapDocuments (r : Registry) (f : Schema → Schema) (key : String) :
    (r.mapDocuments f).document? key = (r.document? key).map f := by
  have hentries : (r.mapDocuments f).entries = r.entries.map fun e => (e.1, f e.2) := rfl
  unfold document?
  rw [hentries, lookupKey_map]

/-! ### Changes of the primary document -/

theorem document?_editPrimary {r : Registry} {f : Schema → Schema} {i : String} {d : Schema}
    (hd : r.document? i = some d) :
    (r.editPrimary f).document? i = some (if i = r.key then f d else d) := by
  have hentries : (r.editPrimary f).entries = (r.key, f r.primary) :: r.imported.entries := rfl
  have hd' : lookupKey i ((r.key, r.primary) :: r.imported.entries) = some d := hd
  unfold document?
  rw [hentries]
  by_cases hi : i = r.key
  · subst hi
    rw [lookupKey, if_pos rfl] at hd' ⊢
    cases hd'
    rw [if_pos rfl]
  · have hi' : r.key ≠ i := fun e => hi e.symm
    rw [lookupKey, if_neg hi'] at hd' ⊢
    rw [if_neg hi, hd']

end SlotFrame.Registry
