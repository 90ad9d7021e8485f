import SlotFrame.Proofs.Registry.ClassSlots
import SlotFrame.Proofs.Registry.Writing

/-! # Registries whose slots are written out

Once a registry is materialized, the attributes of a class are its slots as they were seen from it.
No other declaration has changed, but a name that is no slot may now be found among the attributes
that were written. No class has come to have another slot, as long as every slot bore the name under
which it was induced: a slot is written under the name that it bears.

Main definitions: `Registry.Sees`, `Registry.NamesKept`, `Registry.Materialized`.

Main statements: `Registry.materialized_of_materialize` and `Registry.Materialized.classSlots`. -/

namespace SlotFrame.Registry

variable {r m : Registry}

/-! ### Slots as they are seen from classes -/

/-- A class has a slot and sees it as a definition. -/
def Sees (r : Registry) (c n : String) (d : SlotDef) : Prop :=
  r.HasSlot c n ∧ r.inducedSlot n (some c) = .ok d

theorem Sees.unique {c n : String} {d e : SlotDef} (hd : r.Sees c n d) (he : r.Sees c n e) :
    d = e :=
  Except.ok.inj (hd.2.symm.trans he.2)

/-- Every slot that a class sees bears the name that it was looked for under. -/
def NamesKept (r : Registry) : Prop := ∀ c n d, r.Sees c n d → d.name = n

/-- The induced slots of a class are all of its slots and nothing else. -/
theorem sees_of_classInducedSlots {c : String} {ds : List SlotDef}
    (h : r.classInducedSlots c = .ok ds) :
    (∃ names, r.classSlots c = .ok names) ∧ (∀ n, r.HasSlot c n → ∃ d ∈ ds, r.Sees c n d) ∧
      ∀ d ∈ ds, ∃ n, r.Sees c n d := by
  obtain ⟨names, hnames, hall⟩ := Result.bind_eq_ok_iff.1 h
  obtain ⟨hto, hfrom⟩ := Result.mem_of_mapM hall
  refine ⟨⟨names, hnames⟩, ?_, ?_⟩
  · rintro n ⟨names', hnames', hn⟩
    rw [hnames] at hnames'
    cases hnames'
    obtain ⟨d, hd, hseen⟩ := hto n hn
    exact ⟨d, hd, ⟨names, hnames, hn⟩, hseen⟩
  · intro d hd
    obtain ⟨n, hn, hseen⟩ := hfrom d hd
    exact ⟨n, ⟨names, hnames, hn⟩, hseen⟩

/-- The slots of every class are induced, those of each class once. -/
theorem mem_inducedSlots {slots : List (String × List SlotDef)} (h : r.inducedSlots = .ok slots) :
    (∀ c k, r.class? c = some k → ∃ ds, r.classInducedSlots c = .ok ds ∧ (c, ds) ∈ slots) ∧
      ∀ e ∈ slots, r.classInducedSlots e.1 = .ok e.2 := by
  obtain ⟨hto, hfrom⟩ := Result.mem_of_mapM h
  have hstep : ∀ {c : String} {e : String × List SlotDef},
      (do return (c, ← r.classInducedSlots c) : Result (String × List SlotDef)) = .ok e →
        e.1 = c ∧ r.classInducedSlots c = .ok e.2 := by
    intro c e he
    obtain ⟨ds, hds, hpair⟩ := Result.bind_eq_ok_iff.1 he
    cases hpair
    exact ⟨rfl, hds⟩
  refine ⟨?_, ?_⟩
  · intro c k hk
    obtain ⟨e, he, hseen⟩ := hto c (mem_classes_iff.2 ⟨k, hk⟩)
    obtain ⟨rfl, hds⟩ := hstep hseen
    exact ⟨e.2, hds, he⟩
  · intro e he
    obtain ⟨c, _, hseen⟩ := hfrom e he
    obtain ⟨rfl, hds⟩ := hstep hseen
    exact hds

/-! ### What stands in a registry that is written out -/

/-- What a registry becomes: the attributes of its classes are the slots as they were seen from
them, and nothing else is declared otherwise than before. -/
structure Materialized (r m : Registry) : Prop where
  /-- Everything was seen before it was written. -/
  seen : ∀ c k, r.class? c = some k →
    (∃ names, r.classSlots c = .ok names) ∧ ∀ n, r.HasSlot c n → ∃ d, r.Sees c n d
  class? : ∀ c k, r.class? c = some k → ∃ t, m.class? c = some { k with attributes := t } ∧
    ∀ n d, t.get? n = some d ↔ r.Sees c n d
  unknown : ∀ c, r.class? c = none → m.class? c = none
  ownSlot? : ∀ n, m.ownSlot? n = r.ownSlot? n
  slot? : ∀ n, m.slot? n = r.slot? n ∨ ∃ c d, m.slot? n = some d ∧ r.Sees c n d
  keys : ((m.documents true).map fun d => d.classes.keys) =
    (r.documents true).map fun d => d.classes.keys

/-- What is written into a class is what it sees. -/
theorem mem_written_iff {slots : List (String × List SlotDef)} (h : r.inducedSlots = .ok slots)
    {c : String} {d : SlotDef} : d ∈ written slots c ↔ ∃ n, r.Sees c n d := by
  obtain ⟨hto, hfrom⟩ := mem_inducedSlots h
  unfold written
  rw [List.mem_flatMap]
  constructor
  · rintro ⟨e, he, hd⟩
    by_cases hc : e.1 = c
    · subst hc
      rw [if_pos rfl] at hd
      exact (sees_of_classInducedSlots (hfrom e he)).2.2 d hd
    · rw [if_neg hc] at hd
      cases hd
  · rintro ⟨n, hsees⟩
    obtain ⟨k, hk⟩ := hsees.1.class?
    obtain ⟨ds, hds, he⟩ := hto c k hk
    obtain ⟨d', hd', hsees'⟩ := (sees_of_classInducedSlots hds).2.1 n hsees.1
    obtain rfl := hsees.unique hsees'
    exact ⟨(c, ds), he, by rw [if_pos rfl]; exact hd'⟩

/-- The attributes of a class are what it sees, once that is written. -/
theorem attributes_written (hnames : r.NamesKept) {slots : List (String × List SlotDef)}
    (h : r.inducedSlots = .ok slots) {c : String} {k : ClassDef} (hk : r.class? c = some k)
    (n : String) (d : SlotDef) :
    (k.withAttributes (written slots c)).attributes.get? n = some d ↔ r.Sees c n d := by
  have hsees : ∀ {x}, x ∈ written slots c → r.Sees c x.name x := by
    intro x hx
    obtain ⟨n', hn'⟩ := (mem_written_iff h).1 hx
    rw [hnames c n' x hn']
    exact hn'
  -- What the class sees under a name is written under it.
  have hreads : ∀ {e}, r.Sees c n e →
      (k.withAttributes (written slots c)).attributes.get? n = some e := by
    intro e he
    have hname := hnames c n e he
    obtain ⟨x, hx, hmem, hxn⟩ :=
      k.attributes_withAttributes_of_mem ((mem_written_iff h).2 ⟨n, he⟩)
    rw [hname] at hx hxn
    have hx' := hsees hmem
    rw [hxn] at hx'
    rw [hx, hx'.unique he]
  constructor
  · intro hd
    rcases k.attributes_withAttributes (written slots c) n with hsame | ⟨x, hx, hmem, hxn⟩
    · obtain ⟨ds, hds, _⟩ := (mem_inducedSlots h).1 c k hk
      obtain ⟨⟨names, hall⟩, hto, _⟩ := sees_of_classInducedSlots hds
      obtain ⟨cs, hcs, _⟩ := classSlots_eq_ok_iff.1 hall
      have hkey : n ∈ k.attributes.keys := by
        rw [Table.mem_keys_iff, ← hsame, hd]
        rfl
      obtain ⟨e, _, he⟩ := hto n (.of_declared hcs hk (List.mem_append_right _ hkey))
      have hde := (hreads he).symm.trans hd
      cases hde
      exact he
    · have hxd := hx.symm.trans hd
      cases hxd
      have hx' := hsees hmem
      rw [hxn] at hx'
      exact hx'
  · exact hreads

/-- **Materializing writes out what every class sees**, if all slots kept their names. -/
theorem materialized_of_materialize (hnames : r.NamesKept) (h : r.materialize = .ok m) :
    r.Materialized m := by
  obtain ⟨slots, hslots, rfl⟩ := Result.map_eq_ok_iff.1 h
  refine ⟨?_, ?_, ?_, ?_, ?_, ?_⟩
  · intro c k hk
    obtain ⟨ds, hds, _⟩ := (mem_inducedSlots hslots).1 c k hk
    obtain ⟨hnames, hto, _⟩ := sees_of_classInducedSlots hds
    refine ⟨hnames, fun n hn => ?_⟩
    obtain ⟨d, _, hd⟩ := hto n hn
    exact ⟨d, hd⟩
  · intro c k hk
    refine ⟨(k.withAttributes (written slots c)).attributes, ?_,
      attributes_written hnames hslots hk⟩
    rw [class?_writeAll, hk]
    rfl
  · intro c hc
    rw [class?_writeAll, hc]
    rfl
  · exact ownSlot?_writeAll slots r
  · intro n
    rcases slot?_writeAll slots r n with hsame | ⟨d, hd, ⟨e, he, hmem⟩, hname⟩
    · exact .inl hsame
    · obtain ⟨n', hn'⟩ := (sees_of_classInducedSlots ((mem_inducedSlots hslots).2 e he)).2.2 d hmem
      have hkept := hnames e.1 n' d hn'
      rw [hname] at hkept
      subst hkept
      exact .inr ⟨e.1, d, hd, hn'⟩
  · exact keys_classes_writeAll slots r

namespace Materialized

variable (hm : r.Materialized m)

include hm

/-! ### Classes and their slots -/

theorem classParents (o : Traversal) (c : String) : m.classParents o c = r.classParents o c := by
  unfold Registry.classParents
  cases hk : r.class? c with
  | none => rw [hm.unknown c hk]
  | some k =>
    obtain ⟨t, ht, _⟩ := hm.class? c k hk
    rw [ht]
    rfl

theorem countIn_classes : m.countIn Schema.classes = r.countIn Schema.classes := by
  have hcount : ∀ s : Registry, s.countIn Schema.classes =
      (((s.documents true).map fun d => d.classes.keys).flatten).length := fun s => rfl
  rw [hcount, hcount, hm.keys]

theorem classAncestors (o : Traversal) (c : String) :
    m.classAncestors o c = r.classAncestors o c := by
  have habove : m.classParents o = r.classParents o := funext (hm.classParents o)
  unfold Registry.classAncestors classesUp
  rw [habove, hm.countIn_classes]

theorem keys_classes : (m.classes true).keys = (r.classes true).keys := by
  have hflat : ∀ s : Registry, ((s.documents true).flatMap fun d => d.classes.keys) =
      ((s.documents true).map fun d => d.classes.keys).flatten := fun s => rfl
  unfold classes
  rw [keys_aggregate, keys_aggregate, hflat, hflat, hm.keys]

/-- No class has come to have another slot. -/
theorem hasSlot_iff {c n : String} : m.HasSlot c n ↔ r.HasSlot c n := by
  constructor
  · intro h
    obtain ⟨cs, hcs, a, ha, k', hk', hn⟩ := Registry.hasSlot_iff.1 h
    rw [hm.classAncestors] at hcs
    have hscope : r.scope (some c) = .ok cs := hcs
    obtain ⟨k, hk⟩ := r.class?_of_mem_scope hscope a ha
    obtain ⟨t, ht, hseen⟩ := hm.class? a k hk
    rw [ht] at hk'
    cases hk'
    rcases List.mem_append.1 hn with hslot | hattribute
    · exact Registry.hasSlot_iff.2 ⟨cs, hcs, a, ha, k, hk, List.mem_append_left _ hslot⟩
    · obtain ⟨d, hd⟩ := Option.isSome_iff_exists.1 ((Table.mem_keys_iff _ _).1 hattribute)
      exact ((hseen n d).1 hd).1.of_ancestor hcs ha
  · intro h
    obtain ⟨k, hk⟩ := h.class?
    obtain ⟨t, ht, hseen⟩ := hm.class? c k hk
    obtain ⟨d, hd⟩ := (hm.seen c k hk).2 n h
    obtain ⟨cs, hcs, _⟩ := Registry.hasSlot_iff.1 h
    have hkey : n ∈ t.keys := by
      rw [Table.mem_keys_iff, (hseen n d).2 hd]
      rfl
    exact .of_declared ((hm.classAncestors {} c).trans hcs) ht (List.mem_append_right _ hkey)

/-- **Every class has the slots that it had**, though they may come in another order. -/
theorem classSlots {c : String} {k : ClassDef} (hk : r.class? c = some k) :
    ∃ names names', r.classSlots c = .ok names ∧ m.classSlots c = .ok names' ∧
      ∀ n, n ∈ names' ↔ n ∈ names := by
  obtain ⟨names, hnames⟩ := (hm.seen c k hk).1
  obtain ⟨cs, hcs, _⟩ := classSlots_eq_ok_iff.1 hnames
  have hnames' := classSlots_eq_ok_iff.2 ⟨cs, (hm.classAncestors {} c).trans hcs, rfl⟩
  refine ⟨names, _, hnames, hnames', ?_⟩
  have hiff : ∀ {s : Registry} {ns : List String}, s.classSlots c = .ok ns →
      ∀ n, s.HasSlot c n ↔ n ∈ ns := by
    intro s ns hns n
    constructor
    · rintro ⟨ns', hns', hn⟩
      rw [hns] at hns'
      cases hns'
      exact hn
    · exact fun hn => ⟨ns, hns, hn⟩
  intro n
  rw [← hiff hnames', ← hiff hnames, hm.hasSlot_iff]

end Materialized

end SlotFrame.Registry
