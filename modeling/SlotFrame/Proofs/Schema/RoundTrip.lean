import SlotFrame.Proofs.Schema.Storable

/-! # Definitions are read as they were written

A definition that can be stored is read back from what it is written as, field by field and in the
same order at every level; one that can be stored once it is trimmed is read back trimmed. What is
read from a value can be stored, so reading a document, writing it and reading it again changes
nothing, and neither does naming its elements in between.

Main statements: `Schema.decode_encode` and `Schema.roundTrip`. -/

namespace SlotFrame

open Fields

/-! ### Definitions with metadata -/

theorem nodup_metadataDeclared : Metadata.declared.Nodup := by decide

/-- Metadata behind the fields of a definition is read back. -/
theorem Metadata.ofFields_fields {own : List String} {m : Metadata} (h : m.Storable own) :
    Metadata.ofFields (ofValues m.fields) = .ok m := by
  have hextra : ∀ n ∈ m.extra.keys, n ∉ declared := fun n hn hmem =>
    h.extra.keys n hn (List.mem_append_right own hmem)
  have hold : (ofValues m.fields).Holds m.fieldSlots :=
    holds_ofValues nodup_metadataDeclared fun n hn hmem => hextra n hmem hn
  have hfilter : (recordOf m.fieldSlots ++ m.extra.entries).filter
      (fun e => e.1 ∉ keysOf m.fieldSlots) = m.extra.entries := filter_recordOf hextra
  simp only [Holds, fieldSlots, List.forall_mem_cons] at hold
  obtain ⟨hdescription, htitle, hdeprecated, hrank, hfrom, haliases, hsubset, hsee, hcomments,
    hnotes, htodos, hexact, hclose, hrelated, hnarrow, hbroad, hannotations, _⟩ := hold
  have hvalues : ∀ v ∈ m.annotations.values, Tree.value (Tree.ofValue (id v)) = .ok v :=
    fun v hv => Tree.value_ofValue v (h.annotations v hv)
  have hread : (ofValues m.fields).extra declared = .ok m.extra :=
    extra_ofValues hfilter h.extra.keyed
  unfold ofFields
  rw [text?_of_lookup hdescription, text?_of_lookup htitle, text?_of_lookup hdeprecated,
    whole?_of_lookup h.rank hrank, text?_of_lookup hfrom, texts_of_lookup haliases,
    texts_of_lookup hsubset, texts_of_lookup hsee, texts_of_lookup hcomments,
    texts_of_lookup hnotes, texts_of_lookup htodos, texts_of_lookup hexact, texts_of_lookup hclose,
    texts_of_lookup hrelated, texts_of_lookup hnarrow, texts_of_lookup hbroad,
    table_of_lookup hannotations hvalues, hread]
  rfl

/-- The fields of a definition and of its metadata bear different names. -/
theorem nodup_keysOf_definition {slots : List FieldSlot} {m : Metadata}
    (hslots : (keysOf slots ++ Metadata.declared).Nodup) (h : m.Storable (keysOf slots)) :
    (keysOf (recordOf slots ++ m.fields)).Nodup ∧
      ∀ n ∈ keysOf m.fields, n ∉ keysOf slots := by
  have hall : (keysOf slots ++ Metadata.declared ++ m.extra.keys).Nodup := by
    rw [List.nodup_append]
    refine ⟨hslots, m.extra.nodup_keys, ?_⟩
    rintro n hn _ hmem rfl
    exact h.extra.keys n hmem hn
  have hmetadata : (keysOf m.fields).Sublist (Metadata.declared ++ m.extra.keys) := by
    unfold Metadata.fields
    rw [keysOf_append]
    exact (keysOf_recordOf_sublist m.fieldSlots).append (List.Sublist.refl _)
  rw [List.append_assoc] at hall
  constructor
  · rw [keysOf_append]
    exact hall.sublist ((keysOf_recordOf_sublist slots).append hmetadata)
  · intro n hn hmem
    exact (List.nodup_append.1 hall).2.2 n hmem n (hmetadata.subset hn) rfl

/-- A definition is taken apart into the fields that were set and its metadata. -/
theorem Fields.ofDefinition_record {slots : List FieldSlot} {m : Metadata}
    (hslots : (keysOf slots ++ Metadata.declared).Nodup) (h : m.Storable (keysOf slots)) :
    ∃ f : Fields, ofDefinition (keysOf slots)
      (Tree.ofValue (.record (recordOf slots ++ m.fields))) = .ok (f, m) ∧ f.Holds slots := by
  obtain ⟨hnodup, hapart⟩ := nodup_keysOf_definition hslots h
  refine ⟨ofValues (recordOf slots ++ m.fields), ?_, ?_⟩
  · unfold ofDefinition
    rw [of_record hnodup]
    show ((ofValues (recordOf slots ++ m.fields)).undeclared (keysOf slots) >>= fun g =>
      Metadata.ofFields g >>= fun metadata =>
        pure (ofValues (recordOf slots ++ m.fields), metadata)) = _
    rw [undeclared_ofValues, filter_recordOf hapart]
    show (Metadata.ofFields (ofValues m.fields) >>= _) = _
    rw [Metadata.ofFields_fields h]
    rfl
  · exact holds_ofValues (List.nodup_append.1 hslots).1 fun n hn hmem => hapart n hmem hn

/-- A slot is read as it was written, but for limits of null. -/
theorem SlotDef.decode_encode {d : SlotDef} (h : d.Writable) :
    decode (Tree.ofValue d.encode) = .ok d.trimmed := by
  have hmetadata : d.metadata.Storable (keysOf d.fieldSlots) := h.metadata
  have hslots : (keysOf d.fieldSlots ++ Metadata.declared).Nodup :=
    (by decide : (declared ++ Metadata.declared).Nodup)
  obtain ⟨f, hf, hold⟩ := Fields.ofDefinition_record hslots hmetadata
  simp only [Holds, fieldSlots, List.forall_mem_cons] at hold
  obtain ⟨hname, hisA, hmixins, habstract, hmixin, hrange, hdomain, hrequired, hrecommended,
    hmultivalued, hidentifier, hkey, hdesignates, hinlined, hlist, huri, hpattern, hifAbsent,
    hminimum, hmaximum, howner, _⟩ := hold
  unfold decode encode
  rw [show declared = keysOf d.fieldSlots from rfl, hf]
  dsimp only [bind, Except.bind]
  rw [text_of_lookup hname, text?_of_lookup hisA, texts_of_lookup hmixins,
    truth?_of_lookup habstract, truth?_of_lookup hmixin, text?_of_lookup hrange,
    text?_of_lookup hdomain, truth?_of_lookup hrequired, truth?_of_lookup hrecommended,
    truth?_of_lookup hmultivalued, truth?_of_lookup hidentifier, truth?_of_lookup hkey,
    truth?_of_lookup hdesignates, truth?_of_lookup hinlined, truth?_of_lookup hlist,
    text?_of_lookup huri, text?_of_lookup hpattern, text?_of_lookup hifAbsent,
    value?_of_lookup (Value.keyed_of_limit_trim h.minimumValue) hminimum,
    value?_of_lookup (Value.keyed_of_limit_trim h.maximumValue) hmaximum, text?_of_lookup howner]
  rfl

/-- A class is read as it was written, but for limits of null. -/
theorem ClassDef.decode_encode {c : ClassDef} (h : c.Writable) :
    decode (Tree.ofValue c.encode) = .ok c.trimmed := by
  have hmetadata : c.metadata.Storable (keysOf c.fieldSlots) := h.metadata
  have hread : ∀ {t : Table SlotDef}, (∀ d ∈ (t.map SlotDef.trimmed).values, d.Storable) →
      ∀ d ∈ t.values, d.encode ≠ .null ∧
        SlotDef.decode (Tree.ofValue d.encode) = .ok d.trimmed :=
    fun ht d hd => ⟨nofun, SlotDef.decode_encode (Table.forall_values_map.1 ht d hd)⟩
  have hslots : (keysOf c.fieldSlots ++ Metadata.declared).Nodup :=
    (by decide : (declared ++ Metadata.declared).Nodup)
  obtain ⟨f, hf, hold⟩ := Fields.ofDefinition_record hslots hmetadata
  simp only [Holds, fieldSlots, List.forall_mem_cons] at hold
  obtain ⟨hname, hisA, hmixins, habstract, hmixin, happlied, husage, hattributes, huri, hroot, _⟩ :=
    hold
  unfold decode encode
  rw [show declared = keysOf c.fieldSlots from rfl, hf]
  dsimp only [bind, Except.bind]
  rw [text_of_lookup hname, text?_of_lookup hisA, texts_of_lookup hmixins,
    truth?_of_lookup habstract, truth?_of_lookup hmixin, texts_of_lookup happlied,
    registry_map_of_lookup husage (hread h.slotUsage),
    registry_map_of_lookup hattributes (hread h.attributes),
    text?_of_lookup huri, truth?_of_lookup hroot]
  rfl

/-- A type is read as it was written, but for limits of null. -/
theorem TypeDef.decode_encode {d : TypeDef} (h : d.Writable) :
    decode (Tree.ofValue d.encode) = .ok d.trimmed := by
  have hmetadata : d.metadata.Storable (keysOf d.fieldSlots) := h.metadata
  have hslots : (keysOf d.fieldSlots ++ Metadata.declared).Nodup :=
    (by decide : (declared ++ Metadata.declared).Nodup)
  obtain ⟨f, hf, hold⟩ := Fields.ofDefinition_record hslots hmetadata
  simp only [Holds, fieldSlots, List.forall_mem_cons] at hold
  obtain ⟨hname, htypeOf, hbase, huri, hrepresentation, hpattern, hminimum, hmaximum, _⟩ := hold
  unfold decode encode
  rw [show declared = keysOf d.fieldSlots from rfl, hf]
  dsimp only [bind, Except.bind]
  rw [text_of_lookup hname, text?_of_lookup htypeOf, text?_of_lookup hbase, text?_of_lookup huri,
    text?_of_lookup hrepresentation, text?_of_lookup hpattern,
    value?_of_lookup (Value.keyed_of_limit_trim h.minimumValue) hminimum,
    value?_of_lookup (Value.keyed_of_limit_trim h.maximumValue) hmaximum]
  rfl

/-- A subset that can be stored is read as it was written. -/
theorem SubsetDef.Storable.decode_encode {d : SubsetDef} (h : d.Storable) :
    decode (Tree.ofValue d.encode) = .ok d := by
  have hslots : (keysOf [("name", some (Value.text d.name))] ++ Metadata.declared).Nodup :=
    (by decide : (declared ++ Metadata.declared).Nodup)
  obtain ⟨f, hf, hold⟩ := Fields.ofDefinition_record hslots h.metadata
  simp only [Holds, List.forall_mem_cons] at hold
  unfold decode encode
  rw [show declared = keysOf [("name", some (Value.text d.name))] from rfl, hf]
  dsimp only [bind, Except.bind]
  rw [text_of_lookup hold.1]
  rfl

/-! ### Definitions without metadata -/

/-- Fields with what is not declared behind them are read back. -/
theorem Fields.of_encoded {slots : List FieldSlot} {t : Table Value} (hslots : (keysOf slots).Nodup)
    (h : t.Undeclared (keysOf slots)) :
    ∃ f g : Fields,
      Fields.of (keysOf slots) (Tree.ofValue (.record (recordOf slots ++ t.entries))) = .ok f ∧
        f.Holds slots ∧ f.undeclared (keysOf slots) = .ok g ∧ g.extra (keysOf slots) = .ok t := by
  have hnodup : (keysOf (recordOf slots ++ t.entries)).Nodup := by
    rw [keysOf_append, List.nodup_append]
    refine ⟨hslots.sublist (keysOf_recordOf_sublist slots), t.nodup, ?_⟩
    rintro n hn _ hmem rfl
    exact h.keys n hmem ((keysOf_recordOf_sublist slots).subset hn)
  have hall : t.entries.filter (fun e => e.1 ∉ keysOf slots) = t.entries := by
    rw [List.filter_eq_self]
    intro e he
    simpa using h.keys e.1 (List.mem_map_of_mem he)
  refine ⟨_, ofValues t.entries, of_record hnodup,
    holds_ofValues hslots fun n hn hmem => h.keys n hmem hn, ?_, extra_ofValues hall h.keyed⟩
  rw [undeclared_ofValues, filter_recordOf h.keys]

/-- A permissible value that can be stored is read as it was written. -/
theorem PermissibleValue.Storable.decode_encode {key : String} {v : PermissibleValue}
    (h : v.Storable key) : decode (Tree.ofValue v.encode) = .ok v := by
  have hslots : (keysOf v.fieldSlots).Nodup := (by decide : declared.Nodup)
  obtain ⟨f, g, hf, hold, hg, hextra⟩ := Fields.of_encoded hslots h.extra
  simp only [Holds, fieldSlots, List.forall_mem_cons] at hold
  obtain ⟨htext, hdescription, hmeaning, _⟩ := hold
  unfold decode encode
  rw [show declared = keysOf v.fieldSlots from rfl, hf]
  dsimp only [bind, Except.bind]
  rw [text_of_lookup htext, text?_of_lookup hdescription, text?_of_lookup hmeaning, hg]
  dsimp only
  rw [hextra]
  rfl

/-- Permissible values with texts are read as they were written. -/
theorem PermissibleValue.decodeTable_encode {t : Table PermissibleValue}
    (h : ∀ e ∈ t.entries, e.2.Storable e.1) :
    decodeTable (Tree.ofValue (.record (t.map encode).entries)) = .ok t := by
  have hall : (ofValues (t.map encode).entries).entries.mapM (fun e => do
      let v := (← e.2.optional decode).getD {}
      return (e.1, if v.text.isEmpty then { v with text := e.1 } else v)) =
        (.ok (t.entries.map id) : Reading _) := by
    rw [entries_ofValues_map, List.mapM_map]
    refine Reading.mapM_eq_ok fun e he => ?_
    have hv := h e he
    show ((Tree.ofValue (encode e.2)).optional decode >>= _) = _
    rw [optional_ofValue (by nofun : encode e.2 ≠ .null), hv.decode_encode]
    show Except.ok (e.1, if e.2.text.isEmpty then { e.2 with text := e.1 } else e.2) = Except.ok e
    by_cases htext : e.2.text.isEmpty = true
    · have hempty : e.2.text = "" := by simpa using htext
      have hkey : e.1 = e.2.text := (hv.text hempty).trans hempty.symm
      rw [if_pos htext, hkey]
      exact congrArg Except.ok (Prod.ext hkey.symm rfl)
    · rw [if_neg htext]
  show ((Tree.ofValue (.record (t.map encode).entries)).fields >>= fun es =>
    es.mapM (fun e => do
      let v := (← e.2.optional decode).getD {}
      return (e.1, if v.text.isEmpty then { v with text := e.1 } else v)) >>=
        fun es => pure (Table.ofList es)) = (_ : Reading (Table PermissibleValue))
  rw [fields_ofValue]
  show ((ofValues (t.map encode).entries).entries.mapM (fun e => do
      let v := (← e.2.optional decode).getD {}
      return (e.1, if v.text.isEmpty then { v with text := e.1 } else v)) >>=
        fun es => pure (Table.ofList es)) = (_ : Reading (Table PermissibleValue))
  rw [hall, List.map_id]
  exact congrArg Except.ok t.ofList_entries

/-- An enum that can be stored is read as it was written. -/
theorem EnumDef.Storable.decode_encode {d : EnumDef} (h : d.Storable) :
    decode (Tree.ofValue d.encode) = .ok d := by
  have hslots : (keysOf d.fieldSlots ++ Metadata.declared).Nodup :=
    (by decide : (declared ++ Metadata.declared).Nodup)
  obtain ⟨f, hf, hold⟩ := Fields.ofDefinition_record hslots h.metadata
  simp only [Holds, fieldSlots, List.forall_mem_cons] at hold
  obtain ⟨hname, huri, hset, hvalues, _⟩ := hold
  unfold decode encode
  rw [show declared = keysOf d.fieldSlots from rfl, hf]
  dsimp only [bind, Except.bind]
  rw [text_of_lookup hname, text?_of_lookup huri, text?_of_lookup hset,
    get_of_lookup hvalues rfl (PermissibleValue.decodeTable_encode h.permissibleValues)]
  rfl

/-- A prefix is read as it was written. -/
theorem PrefixDef.decode_encode (p : PrefixDef) : decode (Tree.ofValue p.encode) = .ok p := by
  cases p with
  | simple reference => rfl
  | detailed label reference => cases label <;> rfl

/-! ### Documents -/

/-- A document is read as it was written, but for limits of null. -/
theorem Schema.decode_encode {s : Schema} (h : s.Writable) :
    decode (Tree.ofValue s.encode) = .ok s.trimmed := by
  have hundeclared : s.extra.Undeclared (keysOf s.fieldSlots) := h.extra
  have htypeRead : ∀ d ∈ s.types.values, d.encode ≠ .null ∧
      TypeDef.decode (Tree.ofValue d.encode) = .ok d.trimmed :=
    fun d hd => ⟨nofun, TypeDef.decode_encode (Table.forall_values_map.1 h.types d hd)⟩
  have hslotRead : ∀ d ∈ s.slots.values, d.encode ≠ .null ∧
      SlotDef.decode (Tree.ofValue d.encode) = .ok d.trimmed :=
    fun d hd => ⟨nofun, SlotDef.decode_encode (Table.forall_values_map.1 h.slots d hd)⟩
  have hclassRead : ∀ c ∈ s.classes.values, c.encode ≠ .null ∧
      ClassDef.decode (Tree.ofValue c.encode) = .ok c.trimmed :=
    fun c hc => ⟨nofun, ClassDef.decode_encode (Table.forall_values_map.1 h.classes c hc)⟩
  have hslots : (keysOf s.fieldSlots).Nodup := (by decide : declared.Nodup)
  obtain ⟨f, g, hf, hold, hg, hextra⟩ := Fields.of_encoded hslots hundeclared
  simp only [Holds, fieldSlots, List.forall_mem_cons] at hold
  obtain ⟨hid, hname, htitle, hdescription, hversion, hlicense, hprefix, hrange, hprefixes, hmaps,
    himports, hsubsets, htypes, henums, hown, hclasses, hfile, _⟩ := hold
  unfold decode encode
  rw [show declared = keysOf s.fieldSlots from rfl, hf]
  dsimp only [bind, Except.bind]
  rw [text_of_lookup_nonempty hid, text_of_lookup hname, text?_of_lookup htitle,
    text?_of_lookup hdescription, text?_of_lookup hversion, text?_of_lookup hlicense,
    text?_of_lookup hprefix, text?_of_lookup hrange,
    table_of_lookup hprefixes fun p _ => p.decode_encode, texts_of_lookup hmaps,
    texts_of_lookup himports,
    registry_of_lookup hsubsets fun d hd => ⟨nofun, (h.subsets d hd).decode_encode⟩,
    registry_map_of_lookup htypes htypeRead,
    registry_of_lookup henums fun d hd => ⟨nofun, (h.enums d hd).decode_encode⟩,
    registry_map_of_lookup hown hslotRead, registry_map_of_lookup hclasses hclassRead,
    text?_of_lookup hfile, hg]
  dsimp only
  rw [hextra]
  rfl

/-- A document that can be stored is read as it was written. -/
theorem Schema.Storable.decode_encode {s : Schema} (h : s.Storable) :
    decode (Tree.ofValue s.encode) = .ok s := by
  have hread : s.trimmed.Storable → decode (Tree.ofValue s.encode) = .ok s.trimmed :=
    fun hs => Schema.decode_encode hs
  rw [h.trimmed_eq] at hread
  exact hread h

/-! ### Documents that are read again -/

/-- **What is read is written and read without a loss.** A document read from a value is read again
from what it is written as, every table, list and field in its order, and so is a document whose
elements were named after reading. -/
theorem Schema.roundTrip {v : Value} {s : Schema} (h : Schema.decode (Tree.ofValue v) = .ok s) :
    Schema.decode (Tree.ofValue s.encode) = .ok s ∧
      (Schema.decode (Tree.ofValue s.normalize.encode)).map Schema.normalize = .ok s.normalize := by
  have hs : s.Storable := Schema.yields_decode v s h
  refine ⟨hs.decode_encode, ?_⟩
  rw [hs.normalize.decode_encode]
  exact congrArg Except.ok s.normalize_normalize

/-- A document with both forms of prefixes, both shapes of permissible values, an entry that is left
out, and fields without a place of their own on three levels. -/
def library : Value := .record
  [("name", .text "library"),
   ("prefixes", .record
     [("ex", .text "https://ex.org/"),
      ("dct", .record [("prefix_reference", .text "http://purl.org/dc/terms/")])]),
   ("enums", .record
     [("state", .record [("permissible_values", .list [.text "lent", .text "there"])]),
      ("size", .record [("permissible_values", .record
        [("large", .null), ("small", .record [("rank", .number (.int 1))])])])]),
   ("classes", .record
     [("Book", .record
       [("rank", .number (.int 2)), ("shelf", .record [("row", .number (.int 7))]),
        ("attributes", .record [("title", .null), ("pages", .record
          [("minimum_value", .number (.int 1)), ("unit", .text "page")])])])]),
   ("audience", .text "readers")]

/-- The document is read, and what is read keeps what has no place of its own. -/
theorem Schema.roundTrip_library : ∃ s, Schema.decode (Tree.ofValue library) = .ok s ∧
    s.extra.keys = ["audience"] ∧ s.enums.keys = ["state", "size"] ∧
    (s.normalize.classes.values.map ClassDef.name = ["Book"]) ∧
    Schema.decode (Tree.ofValue s.encode) = .ok s ∧
    (Schema.decode (Tree.ofValue s.normalize.encode)).map Schema.normalize = .ok s.normalize := by
  have hread : (Schema.decode (Tree.ofValue library)).map (fun s =>
      (s.extra.keys, s.enums.keys, s.normalize.classes.values.map ClassDef.name)) =
        .ok (["audience"], ["state", "size"], ["Book"]) := by decide +kernel
  cases h : Schema.decode (Tree.ofValue library) with
  | error e =>
    rw [h] at hread
    cases hread
  | ok s =>
    rw [h] at hread
    obtain ⟨hextra, hrest⟩ := Prod.mk.inj (Except.ok.inj hread)
    obtain ⟨henums, hclasses⟩ := Prod.mk.inj hrest
    exact ⟨s, rfl, hextra, henums, hclasses, Schema.roundTrip h⟩

end SlotFrame
