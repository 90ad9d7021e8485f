import SlotFrame.Proofs.Registry.Flattening
import SlotFrame.Registry.Order

/-! # Elements in their orders

To bring elements into an order is to permute them. Names are distinct, so by their names they
ascend strictly; by their ranks the ranked ones ascend in front of all that have no rank. Elements
that no rank tells apart stay as they were declared: a name stands where a document first declares
it, whichever document its definition comes from.

Main definition: `Table.Arranged`.

Main statements: `filter_mergeSort` (a stable sort keeps the order of what it need not tell apart),
`Table.arranged` and `Registry.arranged_tables`. -/

namespace SlotFrame

variable {α : Type}

/-! ### Stable sorts -/

/-- Entries that may all stand before one another keep their order when they are sorted. -/
theorem filter_mergeSort {β : Type} {le : β → β → Bool}
    (htrans : ∀ a b c, le a b = true → le b c = true → le a c = true)
    (htotal : ∀ a b, (le a b || le b a) = true) {p : β → Bool}
    (hp : ∀ a b, p a = true → p b = true → le a b = true) (xs : List β) :
    (xs.mergeSort le).filter p = xs.filter p := by
  have hsorted : (xs.filter p).Pairwise fun a b => le a b = true := by
    rw [List.pairwise_filter]
    exact List.pairwise_of_forall fun a b ha hb => hp a b ha hb
  have hsub : (xs.filter p).Sublist ((xs.mergeSort le).filter p) := by
    have hfiltered := (List.sublist_mergeSort htrans htotal hsorted List.filter_sublist).filter p
    rwa [List.filter_eq_self.2 fun a ha => (List.mem_filter.1 ha).2] at hfiltered
  have hlength : (xs.filter p).length = ((xs.mergeSort le).filter p).length :=
    ((List.mergeSort_perm xs le).filter p).length_eq.symm
  exact (hsub.eq_of_length hlength).symm

/-! ### Comparisons -/

theorem rankLe_trans {a b c : Option Int} (hab : rankLe a b = true) (hbc : rankLe b c = true) :
    rankLe a c = true := by
  cases a <;> cases b <;> cases c <;> simp_all [rankLe]
  omega

theorem rankLe_total (a b : Option Int) : (rankLe a b || rankLe b a) = true := by
  cases a <;> cases b <;> simp [rankLe]
  omega

/-- What stands before a rank is ranked, and not higher. -/
theorem rankLe_iff {a b : Option Int} :
    rankLe a b = true ↔ ∀ n, b = some n → ∃ m, a = some m ∧ m ≤ n := by
  cases a <;> cases b <;> simp [rankLe]

variable [Element α]

/-- The rank of the element of an entry. -/
def rankOf (e : String × α) : Option Int := (Element.metadata e.2).rank

namespace ElementOrder

theorem le_byName_iff {a b : String × α} : byName.le a b = true ↔ a.1 ≤ b.1 := by
  simp only [le, Bool.not_eq_true', decide_eq_false_iff_not, String.not_lt]

theorem le_trans (o : ElementOrder) (a b c : String × α) (hab : o.le a b = true)
    (hbc : o.le b c = true) : o.le a c = true := by
  cases o with
  | declared => rfl
  | byName => exact le_byName_iff.2 (String.le_trans (le_byName_iff.1 hab) (le_byName_iff.1 hbc))
  | byRank => exact rankLe_trans hab hbc

theorem le_total (o : ElementOrder) (a b : String × α) : (o.le a b || o.le b a) = true := by
  cases o with
  | declared => rfl
  | byName =>
    rw [Bool.or_eq_true, le_byName_iff, le_byName_iff]
    exact String.le_total a.1 b.1
  | byRank => exact rankLe_total _ _

end ElementOrder

/-! ### Tables -/

namespace Table

variable (t : Table α) (o : ElementOrder)

theorem perm_arrange : (t.arrange o).entries.Perm t.entries := by
  cases o with
  | declared => exact .refl _
  | byName | byRank => exact List.mergeSort_perm _ _

theorem pairwise_arrange : (t.arrange o).entries.Pairwise fun a b => o.le a b = true := by
  cases o with
  | declared => exact List.pairwise_of_forall fun _ _ => rfl
  | byName => exact List.pairwise_mergeSort (ElementOrder.le_trans _) (ElementOrder.le_total _) _
  | byRank => exact List.pairwise_mergeSort (ElementOrder.le_trans _) (ElementOrder.le_total _) _

/-- Elements that an order does not tell apart are in the order in which they were declared. -/
theorem filter_arrange {p : String × α → Bool}
    (hp : ∀ a b, p a = true → p b = true → o.le a b = true) :
    (t.arrange o).entries.filter p = t.entries.filter p := by
  cases o with
  | declared => rfl
  | byName => exact filter_mergeSort (ElementOrder.le_trans _) (ElementOrder.le_total _) hp _
  | byRank => exact filter_mergeSort (ElementOrder.le_trans _) (ElementOrder.le_total _) hp _

/-- By names a table ascends strictly, since no name stands twice. -/
theorem ascends_arrange_byName : (t.arrange .byName).keys.Pairwise (· < ·) := by
  have hne : (t.arrange .byName).entries.Pairwise fun a b => a.1 ≠ b.1 :=
    List.pairwise_map.1 (t.arrange .byName).nodup
  refine List.pairwise_map.2 ((t.pairwise_arrange .byName).imp₂ (fun a b hab hne => ?_) hne)
  have hle : a.1 ≤ b.1 := ElementOrder.le_byName_iff.1 hab
  exact String.not_le.1 fun hge => hne (String.le_antisymm hle hge)

/-- A table whose names come in the order in which they first stand in a list. Sorted by names or
by ranks it has the entries that it has in this order. By names, the names ascend. By ranks, all
that stands before a ranked element is ranked, and not higher; and the elements of any one rank, or
those of none, are in the order in which they were declared. -/
structure Arranged (names : List String) : Prop where
  declared : (t.arrange .declared).keys = names.eraseDups
  byName_perm : (t.arrange .byName).entries.Perm (t.arrange .declared).entries
  byName_ascends : (t.arrange .byName).keys.Pairwise (· < ·)
  byRank_perm : (t.arrange .byRank).entries.Perm (t.arrange .declared).entries
  byRank_ascends : (t.arrange .byRank).entries.Pairwise fun a b =>
    ∀ n, rankOf b = some n → ∃ m, rankOf a = some m ∧ m ≤ n
  byRank_stable : ∀ rank : Option Int, (t.arrange .byRank).entries.filter (rankOf · = rank) =
    (t.arrange .declared).entries.filter (rankOf · = rank)

variable {t}

theorem arranged {names : List String} (h : t.keys = names.eraseDups) : t.Arranged names where
  declared := h
  byName_perm := t.perm_arrange .byName
  byName_ascends := t.ascends_arrange_byName
  byRank_perm := t.perm_arrange .byRank
  byRank_ascends := (t.pairwise_arrange .byRank).imp rankLe_iff.1
  byRank_stable rank := by
    refine t.filter_arrange .byRank fun a b ha hb => ?_
    have hrank : rankOf a = rankOf b := by
      rw [decide_eq_true_eq] at ha hb
      rw [ha, hb]
    have hself := rankLe_total (rankOf a) (rankOf a)
    rw [Bool.or_self] at hself
    show rankLe (rankOf a) (rankOf b) = true
    rw [← hrank]
    exact hself

end Table

/-! ### Registries -/

namespace Registry

variable (r : Registry) (imports : Bool)

theorem keys_slots : (r.slots imports).keys =
    (((r.documents imports).flatMap fun d => d.slots.keys) ++
      (r.classes imports).values.flatMap fun c => c.attributes.keys).eraseDups := by
  unfold slots
  rw [Table.keys_foldl_addMissing, keys_aggregate, eraseDups_eraseDups_append]

/-- **An order only permutes the elements.** Classes, types, enums and subsets are declared in the
order of the documents, slots before the attributes of all classes; a name that is declared again
keeps its place. By names and by ranks the same elements come in ascending order, those without a
rank last, and elements of one rank stay as they were declared. -/
theorem arranged_tables :
    (r.classes imports).Arranged ((r.documents imports).flatMap fun d => d.classes.keys) ∧
    (r.slots imports).Arranged (((r.documents imports).flatMap fun d => d.slots.keys) ++
      (r.classes imports).values.flatMap fun c => c.attributes.keys) ∧
    (r.types imports).Arranged ((r.documents imports).flatMap fun d => d.types.keys) ∧
    (r.enums imports).Arranged ((r.documents imports).flatMap fun d => d.enums.keys) ∧
    (r.subsets imports).Arranged ((r.documents imports).flatMap fun d => d.subsets.keys) :=
  ⟨Table.arranged (r.keys_aggregate Schema.classes), Table.arranged (r.keys_slots imports),
    Table.arranged (r.keys_aggregate Schema.types), Table.arranged (r.keys_aggregate Schema.enums),
    Table.arranged (r.keys_aggregate Schema.subsets)⟩

/-- A class that a later document declares anew gets its rank from there and keeps its place, in
front of another of that rank. -/
example :
    let ranked (n : Int) : ClassDef := { metadata := { rank := some n } }
    let older : Schema := { classes := Table.ofList [("a", {}), ("b", ranked 2), ("c", {})] }
    let newer : Schema := { classes := Table.ofList [("d", ranked (-1)), ("a", ranked 2)] }
    let r := (ofSchema older).insert "newer" newer (by decide)
    ((r.classes true).arrange .byRank).keys = ["d", "a", "b", "c"] ∧
      ((r.classes false).arrange .byRank).keys = ["b", "a", "c"] := by
  cbv

end Registry

end SlotFrame
