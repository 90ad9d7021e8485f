import SlotFrame.Proofs.Data.Tables
import SlotFrame.Registry.Induction

/-! # Filling as an operation

Filling is associative, what fills nothing changes nothing, and filling again with what was filled
already changes nothing. So a definition covers another one, which sets nothing that the first
leaves open, exactly if it stays the same when it is filled with it; what is filled from some
definitions covers each of them, and what covers each of them covers what is filled from them.

Main definition: `SlotDef.Covers`.

Main statements: `SlotDef.fill_assoc`, `SlotDef.covers_of_mem` and `SlotDef.Covers.fillFrom`. -/

namespace SlotFrame

variable {α : Type}

/-! ### Fields -/

theorem Option.or_or_self (x y : Option α) : (x.or y).or x = x.or y := by
  cases x <;> cases y <;> rfl

theorem fillName_assoc (x y z : String) :
    fillName (fillName x y) z = fillName x (fillName y z) := by
  unfold fillName
  by_cases h : x.isEmpty = true
  · rw [if_pos h, if_pos h]
  · rw [if_neg h, if_neg h, if_neg h]

theorem fillName_absorb (x y : String) : fillName (fillName x y) x = fillName x y := by
  unfold fillName
  by_cases h : x.isEmpty = true
  · rw [if_pos h]
    by_cases hy : y.isEmpty = true
    · have hxy : x = y := (String.isEmpty_iff.1 h).trans (String.isEmpty_iff.1 hy).symm
      rw [if_pos hy, hxy]
    · rw [if_neg hy]
  · rw [if_neg h, if_neg h]

theorem fillName_self (x : String) : fillName x x = x := ite_self _

theorem fillList_self (xs : List α) : fillList xs xs = xs := ite_self _

theorem fillTable_self (t : Table α) : fillTable t t = t := ite_self _

theorem fillName_empty (x : String) : fillName x "" = x := by
  unfold fillName
  by_cases h : x.isEmpty = true
  · rw [if_pos h, String.isEmpty_iff.1 h]
  · rw [if_neg h]

theorem fillList_nil (xs : List α) : fillList xs [] = xs := by
  cases xs <;> rfl

theorem fillTable_empty (t : Table α) : fillTable t ∅ = t := by
  unfold fillTable
  by_cases h : t.isEmpty = true
  · rw [if_pos h]
    exact (Table.ext (List.isEmpty_iff.1 h)).symm
  · rw [if_neg h]

theorem fillList_assoc (xs ys zs : List α) :
    fillList (fillList xs ys) zs = fillList xs (fillList ys zs) := by
  cases xs <;> rfl

theorem fillList_absorb (xs ys : List α) : fillList (fillList xs ys) xs = fillList xs ys := by
  cases xs with
  | nil => cases ys <;> rfl
  | cons x xs => rfl

theorem fillTable_assoc (t u v : Table α) :
    fillTable (fillTable t u) v = fillTable t (fillTable u v) := by
  unfold fillTable
  by_cases h : t.isEmpty = true
  · rw [if_pos h, if_pos h]
  · rw [if_neg h, if_neg h, if_neg h]

theorem fillTable_absorb (t u : Table α) : fillTable (fillTable t u) t = fillTable t u := by
  unfold fillTable
  by_cases h : t.isEmpty = true
  · rw [if_pos h]
    by_cases hu : u.isEmpty = true
    · have htu : t = u :=
        Table.ext ((List.isEmpty_iff.1 h).trans (List.isEmpty_iff.1 hu).symm)
      rw [if_pos hu, htu]
    · rw [if_neg hu]
  · rw [if_neg h, if_neg h]

namespace Table

theorem keys_addMissing_eq (t u : Table α) :
    (t.addMissing u).keys = t.keys ++ u.keys.filter (· ∉ t.keys) := by
  have hrest : u.keys.removeAll t.keys = u.keys.filter (· ∉ t.keys) := by
    unfold List.removeAll
    apply List.filter_congr
    intro n _
    simp
  rw [keys_addMissing, List.eraseDups_append, eraseDups_of_nodup t.nodup_keys, hrest,
    eraseDups_of_nodup (u.nodup_keys.filter _)]

theorem addMissing_assoc (t u v : Table α) :
    (t.addMissing u).addMissing v = t.addMissing (u.addMissing v) := by
  apply ext_get?
  · rw [keys_addMissing_eq, keys_addMissing_eq, keys_addMissing_eq, keys_addMissing_eq,
      List.filter_append, List.filter_filter, List.append_assoc]
    congr 2
    apply List.filter_congr
    intro n _
    by_cases ht : n ∈ t.keys
    · simp [ht]
    · simp [ht]
  · intro key
    rw [get?_addMissing, get?_addMissing, get?_addMissing, get?_addMissing, Option.or_assoc]

theorem addMissing_absorb (t u : Table α) : (t.addMissing u).addMissing t = t.addMissing u := by
  apply ext_get?
  · rw [keys_addMissing_eq (t.addMissing u), keys_addMissing_eq]
    have hnone : t.keys.filter (· ∉ t.keys ++ u.keys.filter (· ∉ t.keys)) = [] := by
      rw [List.filter_eq_nil_iff]
      intro n hn
      simp [hn]
    rw [hnone, List.append_nil]
  · intro key
    rw [get?_addMissing, get?_addMissing, SlotFrame.Option.or_or_self]

theorem addMissing_self (t : Table α) : t.addMissing t = t := by
  apply ext_get?
  · rw [keys_addMissing_eq]
    have hnone : t.keys.filter (· ∉ t.keys) = [] := by
      rw [List.filter_eq_nil_iff]
      intro n hn
      simp [hn]
    rw [hnone, List.append_nil]
  · intro key
    rw [get?_addMissing, Option.or_self]

theorem addMissing_empty (t : Table α) : t.addMissing ∅ = t := rfl

theorem empty_addMissing (t : Table α) : (∅ : Table α).addMissing t = t := by
  apply ext_get?
  · rw [keys_addMissing_eq]
    simp
  · intro key
    rw [get?_addMissing, get?_empty, Option.none_or]

end Table

/-! ### Definitions -/

namespace Metadata

theorem fill_assoc (x y z : Metadata) : (x.fill y).fill z = x.fill (y.fill z) := by
  simp only [fill, Option.or_assoc, fillList_assoc, fillTable_assoc, Table.addMissing_assoc]

theorem fill_absorb (x y : Metadata) : (x.fill y).fill x = x.fill y := by
  simp only [fill, SlotFrame.Option.or_or_self, fillList_absorb, fillTable_absorb,
    Table.addMissing_absorb]

theorem fill_self (x : Metadata) : x.fill x = x := by
  simp only [fill, Option.or_self, fillList_self, fillTable_self, Table.addMissing_self]

theorem fill_empty (x : Metadata) : x.fill {} = x := by
  simp only [fill, Option.or_none, fillList_nil, fillTable_empty, Table.addMissing_empty]

theorem empty_fill (x : Metadata) : fill {} x = x := by
  have hextra := Table.empty_addMissing x.extra
  exact Metadata.ext rfl rfl rfl rfl rfl rfl rfl rfl rfl rfl rfl rfl rfl rfl rfl rfl rfl hextra

end Metadata

namespace SlotDef

theorem fill_assoc (x y z : SlotDef) : (x.fill y).fill z = x.fill (y.fill z) := by
  simp only [fill, Option.or_assoc, fillList_assoc, fillName_assoc, Metadata.fill_assoc]

/-- What was filled already fills nothing. -/
theorem fill_absorb (x y : SlotDef) : (x.fill y).fill x = x.fill y := by
  simp only [fill, SlotFrame.Option.or_or_self, fillList_absorb, fillName_absorb,
    Metadata.fill_absorb]

theorem empty_fill (x : SlotDef) : fill {} x = x := by
  have hmetadata := Metadata.empty_fill x.metadata
  exact SlotDef.ext rfl rfl rfl rfl rfl rfl rfl rfl rfl rfl rfl rfl rfl rfl rfl rfl rfl rfl rfl rfl
    rfl hmetadata

theorem fill_self (x : SlotDef) : x.fill x = x := by
  simp only [fill, Option.or_self, fillList_self, fillName_self, Metadata.fill_self]

theorem fill_empty (x : SlotDef) : x.fill {} = x := by
  simp only [fill, Option.or_none, fillList_nil, fillName_empty, Metadata.fill_empty]

/-- A definition that leaves nothing open that another one sets. -/
def Covers (d x : SlotDef) : Prop := d.fill x = d

namespace Covers

variable {d x : SlotDef}

theorem fill_left (x y : SlotDef) : (x.fill y).Covers x := fill_absorb x y

/-- What a definition covers is covered by what is filled from it. -/
theorem fill_behind (h : d.Covers x) (z : SlotDef) : (z.fill d).Covers x := by
  unfold Covers
  rw [fill_assoc]
  exact congrArg z.fill h

/-- Filling a definition from others that it covers changes nothing. -/
theorem foldl_eq {sources : List SlotDef} (h : ∀ x ∈ sources, d.Covers x) :
    sources.foldl SlotDef.fill d = d := by
  induction sources with
  | nil => rfl
  | cons x sources ih =>
    have hx : d.fill x = d := h x List.mem_cons_self
    rw [List.foldl_cons, hx]
    exact ih fun y hy => h y (List.mem_cons_of_mem _ hy)

end Covers

/-! ### Filling from many definitions -/

theorem foldl_fill (sources : List SlotDef) (d : SlotDef) :
    sources.foldl fill d = d.fill (fillFrom sources) := by
  have hall : ∀ (e : SlotDef), sources.foldl fill (d.fill e) = d.fill (sources.foldl fill e) := by
    induction sources with
    | nil => exact fun e => rfl
    | cons x sources ih =>
      intro e
      rw [List.foldl_cons, List.foldl_cons, fill_assoc]
      exact ih _
  have hd := hall {}
  rw [fill_empty] at hd
  exact hd

theorem fillFrom_cons (x : SlotDef) (sources : List SlotDef) :
    fillFrom (x :: sources) = x.fill (fillFrom sources) := by
  rw [← foldl_fill]
  show sources.foldl fill (fill {} x) = _
  rw [empty_fill]

/-- What is filled from some definitions covers each of them. -/
theorem covers_of_mem {sources : List SlotDef} {x : SlotDef} (h : x ∈ sources) :
    (fillFrom sources).Covers x := by
  induction sources with
  | nil => cases h
  | cons y sources ih =>
    rw [fillFrom_cons]
    rcases List.mem_cons.1 h with rfl | h
    · exact .fill_left x _
    · exact (ih h).fill_behind y

/-- What covers some definitions covers what is filled from them. -/
theorem Covers.fillFrom {d : SlotDef} {sources : List SlotDef} (h : ∀ x ∈ sources, d.Covers x) :
    d.Covers (fillFrom sources) := by
  unfold Covers
  rw [← foldl_fill]
  exact Covers.foldl_eq h

/-- The nearest definition is filled up to all of them by what is filled from them. -/
theorem fill_fillFrom_cons (x : SlotDef) (sources : List SlotDef) :
    x.fill (SlotDef.fillFrom (x :: sources)) = SlotDef.fillFrom (x :: sources) := by
  rw [fillFrom_cons, ← fill_assoc, fill_self]

/-- A definition that stands behind one that it fills up, in front of others that it covers, is what
is filled from them all. -/
theorem fillFrom_eq_of_covers {x d : SlotDef} {sources : List SlotDef} (hx : x.fill d = d)
    (h : ∀ y ∈ sources, d.Covers y) : SlotDef.fillFrom (x :: d :: sources) = d := by
  have hd : d.fill (SlotDef.fillFrom sources) = d := Covers.fillFrom h
  rw [fillFrom_cons, fillFrom_cons, hd, hx]

end SlotDef

end SlotFrame
