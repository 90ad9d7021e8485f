import SlotFrame.Proofs.Schema.Fields
import SlotFrame.Proofs.Schema.Naming

/-! # Definitions that a document can hold

Not every definition can be written down and read again: a field without a place of its own must not
bear the name of one that has a place, a value must not name anything twice, a limit of null reads
as no limit, and ranks have 64 bits. Whatever is read from a document is free of all this, but for
limits: a limit that is no finite number is read as null. Trimmed of such limits it can be stored,
and what is read from the tree of a value has none.

Main definitions: `Table.Undeclared`, the `Storable` of each definition, `Schema.trimmed` and
`Schema.Writable`.

Main statements: `Schema.yields_trimmed` (what is read can be stored once it is trimmed) with its
companions for the definitions within a document, `Schema.yields_decode` and
`Schema.Storable.normalize` (what is read from a value can be stored, and named after it). -/

namespace SlotFrame

open Reading (Yields)

variable {α : Type}

/-! ### What definitions must keep -/

/-- Fields none of which is declared and whose values name nothing twice. -/
structure Table.Undeclared (declared : List String) (t : Table Value) : Prop where
  keys : ∀ n ∈ t.keys, n ∉ declared
  keyed : ∀ v ∈ t.values, v.Keyed

/-- A limit that is not null and names nothing twice, or none. -/
def Value.Limit (o : Option Value) : Prop := ∀ v ∈ o, v ≠ .null ∧ v.Keyed

/-- Metadata that can stand beside the fields of a definition. -/
structure Metadata.Storable (own : List String) (m : Metadata) : Prop where
  rank : ∀ i ∈ m.rank, i < Nat.pow 2 63
  annotations : ∀ v ∈ m.annotations.values, v.Keyed
  extra : m.extra.Undeclared (own ++ declared)

/-- A slot that can be stored. -/
structure SlotDef.Storable (d : SlotDef) : Prop where
  minimumValue : Value.Limit d.minimumValue
  maximumValue : Value.Limit d.maximumValue
  metadata : d.metadata.Storable declared

/-- A class that can be stored. -/
structure ClassDef.Storable (c : ClassDef) : Prop where
  slotUsage : ∀ s ∈ c.slotUsage.values, s.Storable
  attributes : ∀ s ∈ c.attributes.values, s.Storable
  metadata : c.metadata.Storable declared

/-- A type that can be stored. -/
structure TypeDef.Storable (d : TypeDef) : Prop where
  minimumValue : Value.Limit d.minimumValue
  maximumValue : Value.Limit d.maximumValue
  metadata : d.metadata.Storable declared

/-- A permissible value that can be stored under a key: without a text it would be read as the
key. -/
structure PermissibleValue.Storable (key : String) (v : PermissibleValue) : Prop where
  text : v.text = "" → key = ""
  extra : v.extra.Undeclared declared

/-- An enum that can be stored. -/
structure EnumDef.Storable (d : EnumDef) : Prop where
  permissibleValues : ∀ e ∈ d.permissibleValues.entries, e.2.Storable e.1
  metadata : d.metadata.Storable declared

/-- A subset that can be stored. -/
structure SubsetDef.Storable (d : SubsetDef) : Prop where
  metadata : d.metadata.Storable declared

/-- A document that can be stored. -/
structure Schema.Storable (s : Schema) : Prop where
  subsets : ∀ d ∈ s.subsets.values, d.Storable
  types : ∀ d ∈ s.types.values, d.Storable
  enums : ∀ d ∈ s.enums.values, d.Storable
  slots : ∀ d ∈ s.slots.values, d.Storable
  classes : ∀ d ∈ s.classes.values, d.Storable
  extra : s.extra.Undeclared declared

/-! ### Limits of null -/

theorem Value.limit_trim {o : Option Value} (h : ∀ v ∈ o, v.Keyed) : Limit (trim o) := by
  intro v hv
  unfold trim at hv
  split at hv
  · cases hv
  · rename_i hnull
    refine ⟨?_, h v hv⟩
    rintro rfl
    exact hnull hv

theorem Value.keyed_of_limit_trim {o : Option Value} (h : Limit (trim o)) : ∀ v ∈ o, v.Keyed := by
  intro v hv
  by_cases hnull : v = .null
  · rw [hnull]
    trivial
  · have hset : ∀ w ∈ o, w ≠ .null := fun w hw => Option.mem_unique hv hw ▸ hnull
    rw [trim_eq_self hset] at h
    exact (h v hv).2

theorem Value.Limit.trim_eq_self {o : Option Value} (h : Limit o) : trim o = o :=
  Value.trim_eq_self fun v hv => (h v hv).1

/-- A slot without limits of null. -/
def SlotDef.trimmed (d : SlotDef) : SlotDef :=
  { d with minimumValue := Value.trim d.minimumValue, maximumValue := Value.trim d.maximumValue }

/-- A type without limits of null. -/
def TypeDef.trimmed (d : TypeDef) : TypeDef :=
  { d with minimumValue := Value.trim d.minimumValue, maximumValue := Value.trim d.maximumValue }

/-- A class whose attributes and refinements are without limits of null. -/
def ClassDef.trimmed (c : ClassDef) : ClassDef :=
  { c with slotUsage := c.slotUsage.map SlotDef.trimmed
           attributes := c.attributes.map SlotDef.trimmed }

/-- A document without limits of null. -/
def Schema.trimmed (s : Schema) : Schema :=
  { s with
    types := s.types.map TypeDef.trimmed
    slots := s.slots.map SlotDef.trimmed
    classes := s.classes.map ClassDef.trimmed }

/-- A slot that can be stored once it is trimmed. -/
abbrev SlotDef.Writable (d : SlotDef) : Prop := d.trimmed.Storable

/-- A type that can be stored once it is trimmed. -/
abbrev TypeDef.Writable (d : TypeDef) : Prop := d.trimmed.Storable

/-- A class that can be stored once it is trimmed. -/
abbrev ClassDef.Writable (c : ClassDef) : Prop := c.trimmed.Storable

/-- A document that can be stored once it is trimmed. -/
abbrev Schema.Writable (s : Schema) : Prop := s.trimmed.Storable

theorem SlotDef.trimmed_eq_self {d : SlotDef} (hlo : Value.trim d.minimumValue = d.minimumValue)
    (hhi : Value.trim d.maximumValue = d.maximumValue) : d.trimmed = d := by
  unfold trimmed
  rw [hlo, hhi]

theorem TypeDef.trimmed_eq_self {d : TypeDef} (hlo : Value.trim d.minimumValue = d.minimumValue)
    (hhi : Value.trim d.maximumValue = d.maximumValue) : d.trimmed = d := by
  unfold trimmed
  rw [hlo, hhi]

theorem ClassDef.trimmed_eq_self {c : ClassDef} (husage : ∀ s ∈ c.slotUsage.values, s.trimmed = s)
    (hattributes : ∀ s ∈ c.attributes.values, s.trimmed = s) : c.trimmed = c := by
  unfold trimmed
  rw [Table.map_eq_self husage, Table.map_eq_self hattributes]

theorem Schema.trimmed_eq_self {s : Schema} (htypes : ∀ d ∈ s.types.values, d.trimmed = d)
    (hslots : ∀ d ∈ s.slots.values, d.trimmed = d)
    (hclasses : ∀ d ∈ s.classes.values, d.trimmed = d) : s.trimmed = s := by
  unfold trimmed
  rw [Table.map_eq_self htypes, Table.map_eq_self hslots, Table.map_eq_self hclasses]

theorem SlotDef.Storable.trimmed_eq {d : SlotDef} (h : d.Storable) : d.trimmed = d :=
  trimmed_eq_self h.minimumValue.trim_eq_self h.maximumValue.trim_eq_self

/-- What can be stored has nothing to trim. -/
theorem Schema.Storable.trimmed_eq {s : Schema} (h : s.Storable) : s.trimmed = s := by
  refine trimmed_eq_self ?_ (fun d hd => (h.slots d hd).trimmed_eq) ?_
  · intro d hd
    have hd := h.types d hd
    exact TypeDef.trimmed_eq_self hd.minimumValue.trim_eq_self hd.maximumValue.trim_eq_self
  · intro c hc
    have hc := h.classes c hc
    exact ClassDef.trimmed_eq_self (fun d hd => (hc.slotUsage d hd).trimmed_eq)
      fun d hd => (hc.attributes d hd).trimmed_eq

/-! ### What fields are read as -/

/-- The tree of a value. -/
def Tree.FromValue (t : Tree) : Prop := ∃ v, t = ofValue v

/-- Fields whose trees are those of values. -/
def Fields.FromValues (f : Fields) : Prop := ∃ es, f = ofValues es

-- What is read is followed by what is known of its trees, if they are those of values.
variable {valued : Prop}

theorem Tree.yields_whole (t : Tree) : Yields (fun i : Int => i < Nat.pow 2 63) t.whole := by
  unfold whole
  split
  · split
    · exact .ok (by assumption)
    · exact .error _
  · exact .error _

theorem Tree.yields_optional {P : α → Prop} {read : Tree → Reading α} {t : Tree}
    (h : Yields P (read t)) : Yields (fun o => ∀ a ∈ o, P a) (t.optional read) := by
  unfold optional
  refine .skip fun absent => ?_
  cases absent with
  | true => exact .pure (by simp)
  | false => exact h.bind fun a ha => .pure (by simpa using ha)

theorem Tree.yields_table {P : α → Prop} {read : Tree → Reading α} (h : ∀ t, Yields P (read t))
    (t : Tree) : Yields (fun t => ∀ v ∈ t.values, P v) (Tree.table read t) := by
  unfold table
  refine .skip fun es => ?_
  refine (Yields.mapM (Q := fun e => P e.2) fun e _ => ?_).bind fun es hes => .pure ?_
  · exact (h e.2).bind fun a ha => .pure ha
  · intro v hv
    obtain ⟨key, hkey⟩ := Table.mem_values_ofList hv
    exact hes _ hkey

namespace Fields

theorem yields_get {P : α → Prop} {read : Tree → Reading α} {absent : α} (f : Fields)
    (name : String) (habsent : P absent) (h : ∀ t, Yields P (read t)) :
    Yields P (f.get name read absent) := by
  unfold get
  split
  · exact h _
  · exact .ok habsent

/-- A field of a value is read from the tree of a value. -/
theorem yields_get_valued {P : α → Prop} {read : Tree → Reading α} {absent : α} {f : Fields}
    (hf : valued → f.FromValues) (name : String) (habsent : P absent)
    (h : ∀ t, (valued → t.FromValue) → Yields P (read t)) : Yields P (f.get name read absent) := by
  unfold get
  split
  · rename_i t ht
    refine h t fun hv => ?_
    obtain ⟨es, rfl⟩ := hf hv
    rw [show (ofValues es).entries = es.map fun e => (e.1, Tree.ofValue e.2) from rfl,
      lookupKey_map, Option.map_eq_some_iff] at ht
    obtain ⟨v, _, rfl⟩ := ht
    exact ⟨v, rfl⟩
  · exact .ok habsent

theorem yields_of (declared : List String) {t : Tree} (ht : valued → t.FromValue) :
    Yields (fun f => valued → f.FromValues) (Fields.of declared t) := by
  intro f hf hv
  obtain ⟨v, rfl⟩ := ht hv
  cases v with
  | record es =>
    unfold Fields.of at hf
    rw [fields_ofValue] at hf
    dsimp only [bind, Except.bind] at hf
    split at hf
    · cases hf
    · cases hf
      exact ⟨es, rfl⟩
  | _ => cases hf

theorem yields_limit {f : Fields} (hf : valued → f.FromValues) (name : String) :
    Yields (fun o => Value.Limit (Value.trim o) ∧ (valued → Value.trim o = o))
      (f.get? name Tree.value) := by
  refine yields_get_valued hf name ⟨nofun, fun _ => rfl⟩ fun t ht => ?_
  intro o ho
  refine ⟨Value.limit_trim (Tree.yields_optional t.yields_value o ho), fun hv => ?_⟩
  obtain ⟨v, rfl⟩ := ht hv
  by_cases hnull : v = .null
  · subst hnull
    cases ho
    rfl
  · exact Value.trim_eq_self (Tree.yields_optional (Tree.yields_value_ne_null hnull) o ho)

theorem yields_fields {t : Tree} (ht : valued → t.FromValue) :
    Yields (fun es => ∀ e ∈ es, valued → e.2.FromValue) t.fields := by
  intro es hes e he hv
  obtain ⟨v, rfl⟩ := ht hv
  cases v with
  | record fs =>
    rw [fields_ofValue] at hes
    cases hes
    obtain ⟨g, _, rfl⟩ := List.mem_map.1 he
    exact ⟨g.2, rfl⟩
  | _ => cases hes

theorem yields_registry {P : α → Prop} {blank : α} {read : Tree → Reading α} {f : Fields}
    (hf : valued → f.FromValues) (name : String)
    (h : ∀ t, (valued → t.FromValue) → Yields P (read t)) (hblank : P blank) :
    Yields (fun t => ∀ a ∈ t.values, P a) (f.registry name blank read) := by
  have hempty : ∀ a ∈ (∅ : Table α).values, P a := fun a ha => nomatch ha
  refine yields_get_valued hf name hempty fun t ht => ?_
  unfold Tree.registry
  refine .skip fun absent => ?_
  cases absent with
  | true => exact .pure hempty
  | false =>
    refine (yields_fields ht).bind fun es hes => ?_
    refine (Yields.mapM (Q := fun e => P e.2) fun e he => ?_).bind fun es hes => .pure ?_
    · refine (Tree.yields_optional (h e.2 (hes e he))).bind fun o ho => .pure ?_
      cases o with
      | none => exact hblank
      | some a => exact ho a rfl
    · intro a ha
      obtain ⟨key, hkey⟩ := Table.mem_values_ofList ha
      exact hes _ hkey

/-- What is read as it stands is not declared. -/
theorem yields_extra (f : Fields) (declared : List String) :
    Yields (fun t => t.Undeclared declared ∧ ∀ n ∈ t.keys, n ∈ keysOf f.entries)
      (f.extra declared) := by
  unfold extra
  refine (Yields.mapM (Q := fun e => (e.1 ∉ declared ∧ e.1 ∈ keysOf f.entries) ∧ e.2.Keyed)
    fun e he => ?_).bind fun es hes => .pure ?_
  · obtain ⟨hmem, hno⟩ := List.mem_filter.1 he
    refine (Tree.yields_value e.2).bind fun v hv => .pure ⟨⟨?_, List.mem_map_of_mem hmem⟩, hv⟩
    simpa using hno
  · have hkeys : ∀ n ∈ (Table.ofList es).keys, n ∉ declared ∧ n ∈ keysOf f.entries := by
      intro n hn
      obtain ⟨e, he, rfl⟩ := List.mem_map.1 hn
      exact (hes e (Table.mem_entries_ofList he)).1
    refine ⟨⟨fun n hn => (hkeys n hn).1, ?_⟩, fun n hn => (hkeys n hn).2⟩
    intro v hv
    obtain ⟨key, hkey⟩ := Table.mem_values_ofList hv
    exact (hes _ hkey).2

theorem yields_undeclared (f : Fields) (own : List String) :
    Yields (fun g => ∀ n ∈ keysOf g.entries, n ∉ own) (f.undeclared own) := by
  unfold undeclared
  refine (Yields.mapM (Q := fun e => e.1 ∉ own) fun e he => ?_).bind fun es hes => .pure ?_
  · refine .skip fun t => .pure ?_
    simpa using (List.mem_filter.1 he).2
  · intro n hn
    obtain ⟨e, he, rfl⟩ := List.mem_map.1 hn
    exact hes e he

end Fields

/-! ### What is read can be stored -/

theorem Metadata.yields_ofFields {own : List String} {f : Fields}
    (hf : ∀ n ∈ keysOf f.entries, n ∉ own) : Yields (Metadata.Storable own) (ofFields f) := by
  unfold ofFields
  iterate 3 refine .skip fun _ => ?_
  refine (f.yields_get "rank" nofun fun t =>
    Tree.yields_optional t.yields_whole).bind fun rank hrank => ?_
  iterate 12 refine .skip fun _ => ?_
  refine (f.yields_get "annotations" nofun
    (Tree.yields_table Tree.yields_value)).bind fun annotations hannotations => ?_
  refine (f.yields_extra declared).bind fun extra hextra => .pure ⟨hrank, hannotations, ?_, ?_⟩
  · intro n hn hmem
    rcases List.mem_append.1 hmem with hmem | hmem
    · exact hf n (hextra.2 n hn) hmem
    · exact hextra.1.keys n hn hmem
  · exact hextra.1.keyed

theorem Fields.yields_ofDefinition (own : List String) {t : Tree} (ht : valued → t.FromValue) :
    Yields (fun p => (valued → p.1.FromValues) ∧ p.2.Storable own) (ofDefinition own t) := by
  unfold ofDefinition
  refine (yields_of _ ht).bind fun f hf => ?_
  refine (f.yields_undeclared own).bind fun g hg => ?_
  exact (Metadata.yields_ofFields hg).bind fun m hm => .pure ⟨hf, hm⟩

theorem Metadata.storable_default (own : List String) : Metadata.Storable own {} where
  rank := nofun
  annotations := nofun
  extra := ⟨nofun, nofun⟩

theorem SlotDef.storable_default : SlotDef.Storable {} :=
  ⟨nofun, nofun, Metadata.storable_default _⟩

theorem SlotDef.yields_trimmed (t : Tree) (ht : valued → t.FromValue) :
    Yields (fun d => d.Writable ∧ (valued → d.trimmed = d)) (decode t) := by
  unfold decode
  refine (Fields.yields_ofDefinition declared ht).bind fun p hp => ?_
  obtain ⟨f, m⟩ := p
  obtain ⟨hf, hm⟩ := hp
  iterate 18 refine .skip fun _ => ?_
  refine (Fields.yields_limit hf "minimum_value").bind fun lo hlo => ?_
  refine (Fields.yields_limit hf "maximum_value").bind fun hi hhi => ?_
  refine .skip fun _ => .pure ⟨⟨hlo.1, hhi.1, hm⟩, fun hv => ?_⟩
  exact trimmed_eq_self (hlo.2 hv) (hhi.2 hv)

theorem ClassDef.yields_trimmed (t : Tree) (ht : valued → t.FromValue) :
    Yields (fun c => c.Writable ∧ (valued → c.trimmed = c)) (decode t) := by
  have hblank : ({} : SlotDef).Writable ∧ (valued → ({} : SlotDef).trimmed = {}) :=
    ⟨SlotDef.storable_default, fun _ => rfl⟩
  unfold decode
  refine (Fields.yields_ofDefinition declared ht).bind fun p hp => ?_
  obtain ⟨f, m⟩ := p
  obtain ⟨hf, hm⟩ := hp
  iterate 6 refine .skip fun _ => ?_
  refine (Fields.yields_registry hf "slot_usage" SlotDef.yields_trimmed hblank).bind
    fun usage husage => ?_
  refine (Fields.yields_registry hf "attributes" SlotDef.yields_trimmed hblank).bind
    fun attributes hattributes => ?_
  iterate 2 refine .skip fun _ => ?_
  refine .pure ⟨⟨?_, ?_, hm⟩, fun hv => ?_⟩
  · exact Table.forall_values_map.2 fun d hd => (husage d hd).1
  · exact Table.forall_values_map.2 fun d hd => (hattributes d hd).1
  · exact trimmed_eq_self (fun d hd => (husage d hd).2 hv) fun d hd => (hattributes d hd).2 hv

theorem TypeDef.yields_trimmed (t : Tree) (ht : valued → t.FromValue) :
    Yields (fun d => d.Writable ∧ (valued → d.trimmed = d)) (decode t) := by
  unfold decode
  refine (Fields.yields_ofDefinition declared ht).bind fun p hp => ?_
  obtain ⟨f, m⟩ := p
  obtain ⟨hf, hm⟩ := hp
  iterate 6 refine .skip fun _ => ?_
  refine (Fields.yields_limit hf "minimum_value").bind fun lo hlo => ?_
  refine (Fields.yields_limit hf "maximum_value").bind fun hi hhi => ?_
  exact .pure ⟨⟨hlo.1, hhi.1, hm⟩, fun hv => trimmed_eq_self (hlo.2 hv) (hhi.2 hv)⟩

theorem PermissibleValue.yields_decode (t : Tree) :
    Yields (fun v => v.extra.Undeclared declared) (decode t) := by
  unfold decode
  refine .skip fun f => ?_
  iterate 3 refine .skip fun _ => ?_
  refine .skip fun g => ?_
  exact (g.yields_extra declared).bind fun extra hextra => .pure hextra.1

theorem PermissibleValue.yields_decodeTable (t : Tree) :
    Yields (fun t => ∀ e ∈ t.entries, Storable e.1 e.2) (decodeTable t) := by
  have hnone : (∅ : Table Value).Undeclared declared := ⟨nofun, nofun⟩
  unfold decodeTable
  split
  · exact .ok nofun
  · refine .skip fun v => ?_
    split
    · exact .ok nofun
    · exact .error _
  · refine Yields.skip fun texts => .pure fun e he => ?_
    obtain ⟨s, _, rfl⟩ := List.mem_map.1 (Table.mem_entries_ofList he)
    exact ⟨id, hnone⟩
  · refine Yields.skip fun fs => ?_
    refine (Yields.mapM (Q := fun e => Storable e.1 e.2) fun e _ => ?_).bind fun es hes => .pure ?_
    · refine (Tree.yields_optional (yields_decode e.2)).bind fun o ho => .pure ?_
      have hextra : (o.getD {}).extra.Undeclared declared := by
        cases o with
        | none => exact hnone
        | some w => exact ho w rfl
      dsimp only
      by_cases htext : (o.getD {}).text.isEmpty = true
      · rw [if_pos htext]
        exact ⟨id, hextra⟩
      · rw [if_neg htext]
        exact ⟨fun h => absurd (by rw [h]; rfl) htext, hextra⟩
    · intro e he
      exact hes e (Table.mem_entries_ofList he)
  · exact .error _
  · exact .error _
  · exact .error _

theorem EnumDef.yields_decode (t : Tree) : Yields Storable (decode t) := by
  have hknown : False → t.FromValue := False.elim
  unfold decode
  refine (Fields.yields_ofDefinition declared hknown).bind fun p hp => ?_
  iterate 3 refine .skip fun _ => ?_
  refine (Fields.yields_get _ "permissible_values" nofun
    PermissibleValue.yields_decodeTable).bind fun values hvalues => ?_
  exact .pure ⟨hvalues, hp.2⟩

theorem SubsetDef.yields_decode (t : Tree) : Yields Storable (decode t) := by
  have hknown : False → t.FromValue := False.elim
  unfold decode
  refine (Fields.yields_ofDefinition declared hknown).bind fun p hp => ?_
  exact .skip fun _ => .pure ⟨hp.2⟩

/-- What is read can be stored once it is trimmed, and what is read from a value has nothing to
trim. -/
theorem Schema.yields_trimmed (t : Tree) (ht : valued → t.FromValue) :
    Yields (fun s => s.Writable ∧ (valued → s.trimmed = s)) (decode t) := by
  have hsubset : SubsetDef.Storable {} := ⟨Metadata.storable_default _⟩
  have henum : EnumDef.Storable {} := ⟨nofun, Metadata.storable_default _⟩
  have htype : ({} : TypeDef).Writable ∧ (valued → ({} : TypeDef).trimmed = {}) :=
    ⟨⟨nofun, nofun, Metadata.storable_default _⟩, fun _ => rfl⟩
  have hslot : ({} : SlotDef).Writable ∧ (valued → ({} : SlotDef).trimmed = {}) :=
    ⟨SlotDef.storable_default, fun _ => rfl⟩
  have hclass : ({} : ClassDef).Writable ∧ (valued → ({} : ClassDef).trimmed = {}) :=
    ⟨⟨fun _ h => absurd h List.not_mem_nil, fun _ h => absurd h List.not_mem_nil,
      Metadata.storable_default _⟩, fun _ => rfl⟩
  unfold decode
  refine (Fields.yields_of declared ht).bind fun f hf => ?_
  iterate 11 refine .skip fun _ => ?_
  refine (Fields.yields_registry hf "subsets" (fun t _ => SubsetDef.yields_decode t) hsubset).bind
    fun subsets hsubsets => ?_
  refine (Fields.yields_registry hf "types" TypeDef.yields_trimmed htype).bind
    fun types htypes => ?_
  refine (Fields.yields_registry hf "enums" (fun t _ => EnumDef.yields_decode t) henum).bind
    fun enums henums => ?_
  refine (Fields.yields_registry hf "slots" SlotDef.yields_trimmed hslot).bind
    fun slots hslots => ?_
  refine (Fields.yields_registry hf "classes" ClassDef.yields_trimmed hclass).bind
    fun classes hclasses => ?_
  iterate 2 refine .skip fun _ => ?_
  refine (Fields.yields_extra _ declared).bind fun extra hextra => .pure ⟨?_, fun hv => ?_⟩
  · exact ⟨hsubsets, Table.forall_values_map.2 fun d hd => (htypes d hd).1, henums,
      Table.forall_values_map.2 fun d hd => (hslots d hd).1,
      Table.forall_values_map.2 fun d hd => (hclasses d hd).1, hextra.1⟩
  · exact trimmed_eq_self (fun d hd => (htypes d hd).2 hv) (fun d hd => (hslots d hd).2 hv)
      fun d hd => (hclasses d hd).2 hv

/-- What is read from a value can be stored. -/
theorem Schema.yields_decode (v : Value) : Yields Storable (decode (Tree.ofValue v)) := by
  intro s hs
  obtain ⟨hstorable, hwhole⟩ := yields_trimmed _ (fun _ : True => ⟨v, rfl⟩) s hs
  rw [← hwhole trivial]
  exact hstorable

/-! ### Names from keys -/

/-- What does not depend on names is kept when names are taken from keys. -/
theorem forall_nameFromKeys [Element α] {P : α → Prop}
    (hrename : ∀ n a, P a → P (Element.rename n a)) {t : Table α} (h : ∀ a ∈ t.values, P a) :
    ∀ a ∈ (nameFromKeys t).values, P a := by
  intro b hb
  obtain ⟨e, he, rfl⟩ := Table.mem_values_mapWithKey hb
  have ha := h e.2 (List.mem_map_of_mem he)
  split
  · exact hrename e.1 e.2 ha
  · exact ha

theorem SlotDef.Storable.rename (n : String) {d : SlotDef} (h : d.Storable) :
    SlotDef.Storable (Element.rename n d) := ⟨h.minimumValue, h.maximumValue, h.metadata⟩

theorem ClassDef.Storable.normalize {c : ClassDef} (h : c.Storable) : c.normalize.Storable where
  slotUsage := forall_nameFromKeys (fun n _ hd => hd.rename n) h.slotUsage
  attributes := forall_nameFromKeys (fun n _ hd => hd.rename n) h.attributes
  metadata := h.metadata

theorem EnumDef.Storable.normalize {d : EnumDef} (h : d.Storable) : d.normalize.Storable where
  permissibleValues e he := by
    obtain ⟨g, hg, rfl⟩ := List.mem_map.1 he
    have hv := h.permissibleValues g hg
    dsimp only
    split
    · exact ⟨id, hv.extra⟩
    · exact hv
  metadata := h.metadata

/-- A document can still be stored once its elements are named. -/
theorem Schema.Storable.normalize {s : Schema} (h : s.Storable) : s.normalize.Storable where
  subsets := forall_nameFromKeys (fun _ _ hd => ⟨hd.metadata⟩) h.subsets
  types := forall_nameFromKeys
    (fun _ _ hd => ⟨hd.minimumValue, hd.maximumValue, hd.metadata⟩) h.types
  slots := forall_nameFromKeys (fun n _ hd => hd.rename n) h.slots
  enums d hd := by
    have hnamed : ∀ e ∈ (nameFromKeys s.enums).values, EnumDef.Storable e :=
      forall_nameFromKeys (fun _ _ he => ⟨he.permissibleValues, he.metadata⟩) h.enums
    have hd' : d ∈ (nameFromKeys s.enums).values.map EnumDef.normalize := by
      rw [← Table.values_map]
      exact hd
    obtain ⟨e, he, rfl⟩ := List.mem_map.1 hd'
    exact (hnamed e he).normalize
  classes c hc := by
    have hnamed : ∀ e ∈ (nameFromKeys s.classes).values, ClassDef.Storable e :=
      forall_nameFromKeys (fun _ _ he => ⟨he.slotUsage, he.attributes, he.metadata⟩) h.classes
    have hc' : c ∈ (nameFromKeys s.classes).values.map ClassDef.normalize := by
      rw [← Table.values_map]
      exact hc
    obtain ⟨e, he, rfl⟩ := List.mem_map.1 hc'
    exact (hnamed e he).normalize
  extra := h.extra

theorem ClassDef.trimmed_normalize (c : ClassDef) : c.normalize.trimmed = c.trimmed.normalize := by
  have hslots : ∀ t : Table SlotDef,
      (nameFromKeys t).map SlotDef.trimmed = nameFromKeys (t.map SlotDef.trimmed) :=
    fun t => (nameFromKeys_map SlotDef.trimmed (fun _ => rfl) (fun _ _ => rfl) t).symm
  unfold ClassDef.normalize ClassDef.trimmed
  dsimp only
  rw [hslots, hslots]

/-- Elements may be named before a document is trimmed or after. -/
theorem Schema.trimmed_normalize (s : Schema) : s.normalize.trimmed = s.trimmed.normalize := by
  have htypes := nameFromKeys_map TypeDef.trimmed (fun _ => rfl) (fun _ _ => rfl) s.types
  have hslots := nameFromKeys_map SlotDef.trimmed (fun _ => rfl) (fun _ _ => rfl) s.slots
  have hclasses := nameFromKeys_map ClassDef.trimmed (fun _ => rfl) (fun _ _ => rfl) s.classes
  have hnormalize := Table.map_comm ClassDef.trimmed_normalize (nameFromKeys s.classes)
  unfold Schema.normalize Schema.trimmed
  dsimp only
  rw [htypes, hslots, hclasses, hnormalize]

theorem Schema.Writable.normalize {s : Schema} (h : s.Writable) : s.normalize.Writable := by
  have hs : s.trimmed.normalize.Storable := Schema.Storable.normalize h
  unfold Writable
  rw [trimmed_normalize]
  exact hs

end SlotFrame
