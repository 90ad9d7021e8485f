import Mathlib.Data.List.Forall2
import SlotFrame.Proofs.Registry.Materialized

/-! # Classes with their induced slots

The induced slots of a class stand among its attributes under the names that they bear, and these
need not be the names under which the class has them. The class lists what it has exactly if every
slot bears the name under which it was induced; otherwise it lists another name, and of slots that
bear one name it keeps the last.

Main statements: `Registry.exists_of_inducedClass` (what an induced class is made of),
`Registry.get?_attributes_withInduced` (what stands under a name) and
`Registry.get?_attributes_of_borne` (what does if every slot bears its name). -/

namespace SlotFrame

/-- Outcomes that are all reached are those of the inputs one by one. -/
theorem Result.forall₂_of_mapM {α β : Type} {f : α → Result β} {xs : List α} {ys : List β}
    (h : xs.mapM f = .ok ys) : List.Forall₂ (fun x y => f x = .ok y) xs ys := by
  induction xs generalizing ys with
  | nil =>
    cases h
    exact .nil
  | cons x xs ih =>
    rw [List.mapM_cons] at h
    obtain ⟨y, hy, h⟩ := Result.bind_eq_ok_iff.1 h
    obtain ⟨ys', hys, h⟩ := Result.bind_eq_ok_iff.1 h
    cases h
    exact .cons hy (ih hys)

namespace Registry

variable {r : Registry} {c : String} {k : ClassDef}

/-! ### What an induced class is made of -/

theorem nodup_classSlots {names : List String} (h : r.classSlots c = .ok names) : names.Nodup := by
  obtain ⟨cs, -, rfl⟩ := classSlots_eq_ok_iff.1 h
  suffices hfold : ∀ (ks : List ClassDef) (found : List String), found.Nodup →
      (ks.foldl (fun names k => addNames names (slotNames k)) found).Nodup from
    hfold _ [] List.nodup_nil
  intro ks
  induction ks with
  | nil => exact fun _ hfound => hfound
  | cons k ks ih => exact fun found hfound => ih _ (nodup_addNames hfound _)

theorem exists_of_inducedClass (h : r.inducedClass c = .ok k) : ∃ k₀ names ds,
    r.class? c = some k₀ ∧ r.classSlots c = .ok names ∧
      List.Forall₂ (fun n d => r.inducedSlot n (some c) = .ok d) names ds ∧
      k = withInduced k₀ ds := by
  unfold inducedClass at h
  cases hk : r.class? c with
  | none =>
    rw [hk] at h
    cases h
  | some k₀ =>
    rw [hk] at h
    obtain ⟨ds, hds, rfl⟩ := Result.map_eq_ok_iff.1 h
    obtain ⟨names, hnames, hall⟩ := Result.bind_eq_ok_iff.1 hds
    exact ⟨k₀, names, ds, rfl, hnames, Result.forall₂_of_mapM hall, rfl⟩

/-! ### What stands in it -/

theorem keys_attributes_withInduced (k : ClassDef) (ds : List SlotDef) :
    (withInduced k ds).attributes.keys = (ds.map SlotDef.name).eraseDups := by
  show (Table.ofList _).keys = _
  rw [Table.keys_ofList]
  unfold keysOf
  rw [List.map_map]
  rfl

/-- Of the slots that bear one name the last stands under it. -/
theorem get?_attributes_withInduced (k : ClassDef) (ds : List SlotDef) (n : String) :
    (withInduced k ds).attributes.get? n = ds.reverse.find? (fun d => d.name = n) := by
  show (Table.ofList _).get? n = _
  rw [Table.get?_ofList, ← List.map_reverse]
  induction ds.reverse with
  | nil => rfl
  | cons d ds ih =>
    rw [List.find?_cons]
    by_cases hd : d.name = n
    · simp [lookupKey, hd]
    · simp [lookupKey, hd, ih]

/-- Where every slot bears the name under which it is seen, it stands under that name. -/
theorem get?_attributes_of_borne {ds : List SlotDef} (k : ClassDef)
    (hborne : ∀ d ∈ ds, r.inducedSlot d.name (some c) = .ok d) {d : SlotDef} (hd : d ∈ ds) :
    (withInduced k ds).attributes.get? d.name = some d := by
  rw [get?_attributes_withInduced]
  cases hlast : ds.reverse.find? fun e => e.name = d.name with
  | none =>
    have hother := List.find?_eq_none.1 hlast d (List.mem_reverse.2 hd)
    exact absurd (decide_eq_true rfl) hother
  | some e =>
    -- what is seen under one name is one definition, so the last that bears it is this one
    have hname : e.name = d.name := by simpa using List.find?_some hlast
    have he := hborne e (List.mem_reverse.1 (List.mem_of_find?_eq_some hlast))
    rw [hname, hborne d hd] at he
    exact congrArg some (Except.ok.inj he).symm

/-- In a registry that keeps names all slots bear the names under which a class has them. -/
theorem NamesKept.map_name (hkept : r.NamesKept) {names : List String} {ds : List SlotDef}
    (hnames : r.classSlots c = .ok names)
    (hseen : List.Forall₂ (fun n d => r.inducedSlot n (some c) = .ok d) names ds) :
    ds.map SlotDef.name = names := by
  rw [← List.forall₂_eq_eq_eq, List.forall₂_map_left_iff]
  have hmem : ∀ n ∈ names, r.HasSlot c n := fun n hn => ⟨names, hnames, hn⟩
  clear hnames
  induction hseen with
  | nil => exact .nil
  | cons hd _ ih =>
    exact .cons (hkept c _ _ ⟨hmem _ List.mem_cons_self, hd⟩)
      (ih fun n hn => hmem n (List.mem_cons_of_mem _ hn))

end Registry

end SlotFrame
