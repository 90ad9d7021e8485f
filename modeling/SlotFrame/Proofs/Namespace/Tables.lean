import SlotFrame.Namespace.Basic
import SlotFrame.Proofs.Data.Tables

/-! # Tables that operations lead to

A table of namespaces starts empty and is then written to, cleared of its reserved entries and
filled from prefix maps, in any order. Every name that an operation writes is reserved or can be a
prefix.

Main definition: `Namespaces.Reachable`.

Main statement: `Namespaces.Reachable.named`. -/

namespace SlotFrame.Namespaces

/-- The tables that any finite sequence of operations leads to; an operation that fails leaves the
table as it is. -/
inductive Reachable : Namespaces → Prop
  | empty : Reachable empty
  | set {t t' : Namespaces} {name uri : String} (ht : Reachable t)
      (h : t.set name uri = .ok t') : Reachable t'
  | setDefault {t t' : Namespaces} {uri : String} (ht : Reachable t)
      (h : t.setDefault uri = .ok t') : Reachable t'
  | setBase {t t' : Namespaces} {uri : String} (ht : Reachable t)
      (h : t.setBase uri = .ok t') : Reachable t'
  | clearDefault {t : Namespaces} (ht : Reachable t) : Reachable t.clearDefault
  | clearBase {t : Namespaces} (ht : Reachable t) : Reachable t.clearBase
  | addContext {t : Namespaces} (ht : Reachable t) (context : PrefixMap) (includeDefaults : Bool) :
      Reachable (t.addContext context includeDefaults)

/-- No reserved name can be a prefix. -/
theorem isNcName_of_isReserved {name : String} (h : isReserved name = true) :
    isNcName name = false := by
  unfold isReserved at h
  rw [Bool.or_eq_true, decide_eq_true_eq, decide_eq_true_eq] at h
  rcases h with rfl | rfl <;> decide +kernel

/-- A table all of whose names are reserved or can be prefixes. -/
def Named (t : Namespaces) : Prop :=
  ∀ name ∈ t.entries.keys, isReserved name = true ∨ isNcName name = true

namespace Named

variable {t t' : Namespaces} {name uri : String}

theorem insert (ht : t.Named) (hname : isReserved name = true ∨ isNcName name = true)
    (uri : String) : Named ⟨t.entries.insert name uri⟩ := by
  intro n hn
  rw [Table.mem_keys_iff, Table.get?_insert] at hn
  by_cases he : n = name
  · rw [he]
    exact hname
  · rw [if_neg he, ← Table.mem_keys_iff] at hn
    exact ht n hn

theorem insertNew (ht : t.Named) (hname : isReserved name = true ∨ isNcName name = true)
    (uri : String) : Named ⟨t.entries.insertNew name uri⟩ := by
  unfold Table.insertNew
  split
  · exact ht
  · exact ht.insert hname uri

theorem erase (ht : t.Named) (name : String) : Named ⟨t.entries.erase name⟩ := by
  intro n hn
  rw [Table.keys_erase] at hn
  exact ht n (List.mem_filter.1 hn).1

theorem set (ht : t.Named) (h : t.set name uri = .ok t') : t'.Named := by
  unfold Namespaces.set at h
  split at h
  · rename_i hname
    cases h
    exact ht.insertNew (.inr hname) uri
  · cases h

theorem setReserved {label : String} (ht : t.Named) (hname : isReserved name = true)
    (h : t.setReserved name label uri = .ok t') : t'.Named := by
  unfold Namespaces.setReserved at h
  split at h
  · split at h
    · cases h
      exact ht
    · cases h
  · cases h
    exact ht.insert (.inl hname) uri

theorem addEntry (ht : t.Named) (includeDefaults : Bool) (name : String) (value : Value) :
    (t.addEntry includeDefaults name value).Named := by
  unfold Namespaces.addEntry
  split
  · exact ht
  · split
    · split
      · exact ht.insertNew (.inl (by decide)) _
      · exact ht
    · split
      · rename_i hname
        exact ht.insertNew (.inr hname) _
      · exact ht

theorem addContext (ht : t.Named) (context : PrefixMap) (includeDefaults : Bool) :
    (t.addContext context includeDefaults).Named := by
  unfold Namespaces.addContext
  induction context.entries generalizing t with
  | nil => exact ht
  | cons e entries ih => exact ih (ht.addEntry includeDefaults e.1 e.2)

end Named

/-- Whatever has been done to a table, its names are reserved or can be prefixes. -/
theorem Reachable.named {t : Namespaces} (ht : t.Reachable) : t.Named := by
  induction ht with
  | empty =>
    intro n hn
    cases hn
  | set _ h ih => exact ih.set h
  | setDefault _ h ih => exact ih.setReserved (by decide) h
  | setBase _ h ih => exact ih.setReserved (by decide) h
  | clearDefault _ ih => exact ih.erase defaultName
  | clearBase _ ih => exact ih.erase baseName
  | addContext _ context includeDefaults ih => exact ih.addContext context includeDefaults

end SlotFrame.Namespaces
