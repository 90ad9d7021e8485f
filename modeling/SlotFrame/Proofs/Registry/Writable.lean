import SlotFrame.Proofs.Registry.Writing
import SlotFrame.Proofs.Schema.Storable
import SlotFrame.Schema.Fill

/-! # Registries that can be written

A document that is read can be written and read again, but for limits of null. So can what is made
of such documents: tagged, folded together, filled from each other's slots and with those written
out, they declare nothing that was not read.

Main definition: `Registry.Writable`.

Main statements: `Registry.Writable.inducedSlot`, `Registry.Writable.flatten` and
`Registry.Writable.writeAll`. -/

namespace SlotFrame

/-! ### What is within -/

namespace ClassDef.Writable

variable {c : ClassDef} (h : c.Writable)

include h

theorem forall_attributes : ∀ d ∈ c.attributes.values, d.Writable :=
  (Table.forall_values_map (f := SlotDef.trimmed)).1 h.attributes

theorem forall_slotUsage : ∀ d ∈ c.slotUsage.values, d.Writable :=
  (Table.forall_values_map (f := SlotDef.trimmed)).1 h.slotUsage

end ClassDef.Writable

namespace Schema.Writable

variable {s : Schema} (h : s.Writable)

include h

theorem forall_types : ∀ d ∈ s.types.values, d.Writable :=
  (Table.forall_values_map (f := TypeDef.trimmed)).1 h.types

theorem forall_slots : ∀ d ∈ s.slots.values, d.Writable :=
  (Table.forall_values_map (f := SlotDef.trimmed)).1 h.slots

theorem forall_classes : ∀ c ∈ s.classes.values, c.Writable :=
  (Table.forall_values_map (f := ClassDef.trimmed)).1 h.classes

end Schema.Writable

/-! ### Definitions that are tagged or filled -/

theorem Table.Undeclared.addMissing {declared : List String} {t u : Table Value}
    (ht : t.Undeclared declared) (hu : u.Undeclared declared) :
    (t.addMissing u).Undeclared declared where
  keys n hn := by
    rw [mem_keys_iff, get?_addMissing, Option.isSome_or, Bool.or_eq_true, ← mem_keys_iff,
      ← mem_keys_iff] at hn
    exact hn.elim (ht.keys n) (hu.keys n)
  keyed := Table.forall_values_addMissing ht.keyed hu.keyed

theorem Metadata.Storable.tag {own : List String} {m : Metadata} (h : m.Storable own)
    (origin : Option String) : Metadata.Storable own { m with fromSchema := origin } :=
  ⟨h.rank, h.annotations, h.extra⟩

theorem Metadata.Storable.fill {own : List String} {x y : Metadata} (hx : x.Storable own)
    (hy : y.Storable own) : (x.fill y).Storable own where
  rank i hi := by
    rcases Option.or_eq_some_iff.1 hi with hi | ⟨_, hi⟩
    · exact hx.rank i hi
    · exact hy.rank i hi
  annotations := by
    show ∀ v ∈ (fillTable x.annotations y.annotations).values, v.Keyed
    unfold fillTable
    split
    · exact hy.annotations
    · exact hx.annotations
  extra := hx.extra.addMissing hy.extra

theorem Value.limit_trim_or {x y : Option Value} (hx : Limit (trim x)) (hy : Limit (trim y)) :
    Limit (trim (x.or y)) := by
  cases x with
  | none => exact hy
  | some v => exact hx

theorem SlotDef.Writable.fill {x y : SlotDef} (hx : x.Writable) (hy : y.Writable) :
    (x.fill y).Writable where
  minimumValue := Value.limit_trim_or hx.minimumValue hy.minimumValue
  maximumValue := Value.limit_trim_or hx.maximumValue hy.maximumValue
  metadata := Metadata.Storable.fill hx.metadata hy.metadata

theorem SlotDef.Writable.fillFrom {sources : List SlotDef} (h : ∀ d ∈ sources, d.Writable) :
    (fillFrom sources).Writable := by
  have hall : ∀ d : SlotDef, d.Writable → (sources.foldl SlotDef.fill d).Writable := by
    induction sources with
    | nil => exact fun d hd => hd
    | cons x sources ih =>
      intro d hd
      exact ih (fun y hy => h y (List.mem_cons_of_mem _ hy)) _ (hd.fill (h x List.mem_cons_self))
  exact hall {} SlotDef.storable_default

theorem SlotDef.Writable.tagElement {d : SlotDef} (h : d.Writable) (origin : String) :
    (tagElement origin d).Writable :=
  ⟨h.minimumValue, h.maximumValue, Metadata.Storable.tag h.metadata _⟩

theorem ClassDef.Writable.tagProvenance {c : ClassDef} (h : c.Writable) (origin : String) :
    (c.tagProvenance origin).Writable where
  slotUsage := h.slotUsage
  attributes := by
    have hall : ∀ d ∈ (c.attributes.map (tagElement origin)).values, SlotDef.Writable d :=
      Table.forall_values_map.2 fun d hd => (h.forall_attributes d hd).tagElement origin
    exact Table.forall_values_map.2 hall
  metadata := Metadata.Storable.tag h.metadata _

/-- A class takes slots in under their names. -/
theorem ClassDef.Writable.withAttributes {c : ClassDef} {slots : List SlotDef} (h : c.Writable)
    (hslots : ∀ d ∈ slots, d.Writable) : (c.withAttributes slots).Writable where
  slotUsage := h.slotUsage
  attributes := by
    have hall : ∀ t : Table SlotDef, (∀ d ∈ t.values, d.Writable) →
        ∀ d ∈ (slots.foldl (fun t s => t.insert s.name s) t).values, d.Writable := by
      clear h
      induction slots with
      | nil => exact fun t ht => ht
      | cons s slots ih =>
        intro t ht
        exact ih (fun d hd => hslots d (List.mem_cons_of_mem _ hd)) _
          (Table.forall_values_insert ht (hslots s List.mem_cons_self))
    exact Table.forall_values_map.2 (hall _ h.forall_attributes)
  metadata := h.metadata

/-! ### Documents -/

namespace Schema.Writable

variable {s d : Schema}

theorem tagProvenance (h : s.Writable) (origin : String) : (s.tagProvenance origin).Writable where
  subsets := Table.forall_values_map.2 fun d hd => ⟨(h.subsets d hd).metadata.tag _⟩
  types := Table.forall_values_map.2 <| Table.forall_values_map.2 fun d hd =>
    have ht := h.forall_types d hd
    ⟨ht.minimumValue, ht.maximumValue, Metadata.Storable.tag ht.metadata _⟩
  enums := Table.forall_values_map.2 fun d hd =>
    ⟨(h.enums d hd).permissibleValues, (h.enums d hd).metadata.tag _⟩
  slots := Table.forall_values_map.2 <| Table.forall_values_map.2 fun d hd =>
    (h.forall_slots d hd).tagElement origin
  classes := Table.forall_values_map.2 <| Table.forall_values_map.2 fun c hc =>
    (h.forall_classes c hc).tagProvenance origin
  extra := h.extra

theorem adopt (h : s.Writable) (hd : d.Writable) : (s.adopt d).Writable where
  subsets := Table.forall_values_addMissing h.subsets hd.subsets
  types := Table.forall_values_map.2 <|
    Table.forall_values_addMissing h.forall_types hd.forall_types
  enums := Table.forall_values_addMissing h.enums hd.enums
  slots := Table.forall_values_map.2 <|
    Table.forall_values_addMissing h.forall_slots hd.forall_slots
  classes := Table.forall_values_map.2 <|
    Table.forall_values_addMissing h.forall_classes hd.forall_classes
  extra := h.extra

theorem foldl_adopt {documents : List Schema} (h : s.Writable)
    (hall : ∀ d ∈ documents, d.Writable) : (documents.foldl Schema.adopt s).Writable := by
  induction documents generalizing s with
  | nil => exact h
  | cons d documents ih =>
    exact ih (h.adopt (hall d List.mem_cons_self)) fun e he => hall e (List.mem_cons_of_mem _ he)

theorem withAttributes {slots : List SlotDef} (h : s.Writable) (className : String)
    (hslots : ∀ d ∈ slots, d.Writable) : (s.withAttributes className slots).Writable where
  subsets := h.subsets
  types := h.types
  enums := h.enums
  slots := h.slots
  classes := Table.forall_values_map.2 <|
    Table.forall_values_modify h.forall_classes fun _ hc =>
      ClassDef.Writable.withAttributes hc hslots
  extra := h.extra

end Schema.Writable

/-! ### Registries -/

namespace Registry

/-- All documents can be stored once they are trimmed. -/
def Writable (r : Registry) : Prop := ∀ d ∈ r.documents true, d.Writable

namespace Writable

variable {r m : Registry} (hr : r.Writable)

include hr

theorem class? {name : String} {c : ClassDef} (h : r.class? name = some c) : c.Writable := by
  obtain ⟨d, hd, hc⟩ := r.mem_documents_of_find? h
  exact (hr d hd).forall_classes c (Table.mem_values_of_get? hc)

theorem slot? {name : String} {x : SlotDef} (h : r.slot? name = some x) : x.Writable := by
  rcases Option.or_eq_some_iff.1 h with hown | ⟨_, hattribute⟩
  · obtain ⟨d, hd, hx⟩ := r.mem_documents_of_find? hown
    exact (hr d hd).forall_slots x (Table.mem_values_of_get? hx)
  · obtain ⟨d, hd, hx⟩ := List.exists_of_findSome?_eq_some hattribute
    obtain ⟨c, hc, ha⟩ := List.exists_of_findSome?_eq_some hx
    have hclass := (hr d (List.mem_reverse.1 hd)).forall_classes c hc
    exact hclass.forall_attributes x (Table.mem_values_of_get? ha)

/-- A slot is filled from what the documents declare. -/
theorem inducedSlot {name : String} {className : Option String} {x : SlotDef}
    (h : r.inducedSlot name className = .ok x) : x.Writable := by
  obtain ⟨s, rfl⟩ := r.exists_slotSources h
  have hkind : ∀ k ∈ s.kinds, ClassDef.Writable k := by
    intro k hk
    have hmem : some k ∈ s.classes.map r.class? := by
      rw [s.classes_known]
      exact List.mem_map_of_mem hk
    obtain ⟨c, _, hc⟩ := List.mem_map.1 hmem
    exact hr.class? hc
  have hown : SlotDef.Writable s.own := by
    rcases Option.or_eq_some_iff.1 s.own_found with hfound | ⟨_, hfound⟩
    · rcases Option.or_eq_some_iff.1 hfound with hslot | ⟨_, hattribute⟩
      · exact hr.slot? (Option.or_eq_some_iff.2 (.inl hslot))
      · obtain ⟨k, hk, ha⟩ := List.exists_of_findSome?_eq_some hattribute
        exact (hkind k hk).forall_attributes _ (Table.mem_values_of_get? ha)
    · exact hr.slot? hfound
  refine SlotDef.Writable.fillFrom fun d hd => ?_
  rcases List.mem_append.1 hd with hd | hd
  · rcases List.mem_cons.1 hd with rfl | hd
    · exact hown
    · obtain ⟨k, hk, hsaid⟩ := List.mem_flatMap.1 hd
      rcases List.mem_append.1 hsaid with ha | hu
      · exact (hkind k hk).forall_attributes d (Table.mem_values_of_get? (Option.mem_toList.1 ha))
      · exact (hkind k hk).forall_slotUsage d (Table.mem_values_of_get? (Option.mem_toList.1 hu))
  · have hmem : some d ∈ s.above.map r.slot? := by
      rw [s.above_known]
      exact List.mem_map_of_mem hd
    obtain ⟨n, _, hn⟩ := List.mem_map.1 hmem
    exact hr.slot? hn

theorem classInducedSlots {className : String} {slots : List SlotDef}
    (h : r.classInducedSlots className = .ok slots) : ∀ d ∈ slots, d.Writable := by
  obtain ⟨names, _, hall⟩ := Result.bind_eq_ok_iff.1 h
  intro d hd
  obtain ⟨n, _, hn⟩ := (Result.mem_of_mapM hall).2 d hd
  exact hr.inducedSlot hn

theorem mapDocuments {f : Schema → Schema} (hf : ∀ d : Schema, d.Writable → (f d).Writable) :
    (r.mapDocuments f).Writable := by
  intro d hd
  rw [documents_mapDocuments] at hd
  obtain ⟨e, he, rfl⟩ := List.mem_map.1 hd
  exact hf e (hr e he)

theorem flatten : r.flatten.Writable := by
  intro d hd
  obtain rfl := List.mem_singleton.1 hd
  have hfolded := (hr r.primary List.mem_cons_self).foldl_adopt fun e he =>
    hr e (List.mem_cons_of_mem _ he)
  exact { hfolded with }

theorem writeAttributes (className : String) {slots : List SlotDef}
    (hslots : ∀ d ∈ slots, d.Writable) : (r.writeAttributes className slots).Writable := by
  rcases r.writeAttributes_cases className slots with ⟨_, hsame⟩ |
    ⟨older, key, d, newer, hentries, _, _, hw⟩
  · rw [hsame]
    exact hr
  · have hbefore : ∀ e ∈ r.entries, e.2.Writable := fun e he => hr e.2 (List.mem_map_of_mem he)
    rw [hentries, List.forall_mem_append, List.forall_mem_cons] at hbefore
    obtain ⟨holder, hd, hnewer⟩ := hbefore
    have hafter : ∀ e ∈ (r.writeAttributes className slots).entries, e.2.Writable := by
      rw [hw, List.forall_mem_append, List.forall_mem_cons]
      exact ⟨holder, hd.withAttributes className hslots, hnewer⟩
    intro e he
    obtain ⟨f, hf, rfl⟩ := List.mem_map.1 he
    exact hafter f hf

theorem writeAll {slots : List (String × List SlotDef)}
    (hslots : ∀ e ∈ slots, ∀ d ∈ e.2, SlotDef.Writable d) : (r.writeAll slots).Writable := by
  induction slots generalizing r with
  | nil => exact hr
  | cons e slots ih =>
    exact ih (hr.writeAttributes e.1 (hslots e List.mem_cons_self))
      fun f hf => hslots f (List.mem_cons_of_mem _ hf)

end Writable

end Registry

end SlotFrame
