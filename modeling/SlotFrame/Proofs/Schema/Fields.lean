import Mathlib.Data.List.Nodup
import SlotFrame.Proofs.Data.ValueTrees
import SlotFrame.Schema.Decode
import SlotFrame.Schema.Encode

/-! # Fields that are written and read

A record of fields that are set, with other fields behind it, is read field by field: each name is
found with its value if the field was set and not found if it was not, and what is not declared is
what stands behind.

Main definitions: `Fields.ofValues`, `Fields.Holds`, `Value.trim`.

Main statements: `Fields.of_record` (which fields a record has), `Fields.text_of_lookup` and its
companions (a field is read as it was written, but that null is no value), `Fields.extra_ofValues`
(so is what is not declared). -/

namespace SlotFrame

variable {α β : Type}

/-! ### Records of fields -/

theorem keysOf_recordOf_sublist (slots : List FieldSlot) :
    (keysOf (recordOf slots)).Sublist (keysOf slots) := by
  induction slots with
  | nil => exact List.Sublist.refl _
  | cons s slots ih =>
    obtain ⟨name, value⟩ := s
    cases value with
    | none => exact ih.cons name
    | some v => exact ih.cons_cons name

/-- Fields that are set are found with their values, those that are not are not found. -/
theorem lookupKey_recordOf {slots : List FieldSlot} {rest : List (String × Value)}
    (hn : (keysOf slots).Nodup) (hrest : ∀ n ∈ keysOf slots, n ∉ keysOf rest) :
    ∀ s ∈ slots, lookupKey s.1 (recordOf slots ++ rest) = s.2 := by
  induction slots with
  | nil => exact fun s hs => absurd hs List.not_mem_nil
  | cons t slots ih =>
    rw [keysOf_cons, List.nodup_cons] at hn
    have ih' := ih hn.2 fun n hmem => hrest n (List.mem_cons_of_mem _ hmem)
    have hnew : lookupKey t.1 (recordOf slots ++ rest) = none := by
      rw [lookupKey_eq_none_iff, keysOf_append, List.mem_append, not_or]
      exact ⟨fun h => hn.1 ((keysOf_recordOf_sublist slots).subset h),
        hrest t.1 List.mem_cons_self⟩
    obtain ⟨name, value⟩ := t
    intro s hs
    cases value with
    | none =>
      rcases List.mem_cons.1 hs with rfl | hs
      · exact hnew
      · exact ih' s hs
    | some v =>
      rcases List.mem_cons.1 hs with rfl | hs
      · simp [recordOf, lookupKey]
      · have hmem : s.1 ∈ keysOf slots := List.mem_map_of_mem hs
        have hne : name ≠ s.1 := fun he => hn.1 (he ▸ hmem)
        have hrec : recordOf ((name, some v) :: slots) = (name, v) :: recordOf slots := rfl
        rw [hrec, List.cons_append, lookupKey, if_neg hne]
        exact ih' s hs

/-- What stands behind a record of declared fields is what is not declared. -/
theorem filter_recordOf {slots : List FieldSlot} {rest : List (String × Value)}
    (hrest : ∀ n ∈ keysOf rest, n ∉ keysOf slots) :
    (recordOf slots ++ rest).filter (fun e => e.1 ∉ keysOf slots) = rest := by
  have hdeclared : (recordOf slots).filter (fun e => e.1 ∉ keysOf slots) = [] := by
    rw [List.filter_eq_nil_iff]
    intro e he
    have hmem := (keysOf_recordOf_sublist slots).subset (List.mem_map_of_mem he)
    simpa using hmem
  have hall : rest.filter (fun e => e.1 ∉ keysOf slots) = rest := by
    rw [List.filter_eq_self]
    intro e he
    simpa using hrest e.1 (List.mem_map_of_mem he)
  rw [List.filter_append, hdeclared, hall, List.nil_append]

/-! ### Null -/

/-- A value, or none if it is null. -/
def Value.trim : Option Value → Option Value
  | some .null => none
  | o => o

theorem Value.trim_eq_self {o : Option Value} (h : ∀ v ∈ o, v ≠ .null) : trim o = o := by
  unfold trim
  split
  · exact absurd rfl (h .null rfl)
  · rfl

/-! ### Fields of values -/

namespace Fields

/-- The fields of a record of values. -/
def ofValues (es : List (String × Value)) : Fields := ⟨es.map fun e => (e.1, Tree.ofValue e.2)⟩

/-- Fields of which each listed one is found if it is set. -/
def Holds (f : Fields) (slots : List FieldSlot) : Prop :=
  ∀ s ∈ slots, lookupKey s.1 f.entries = s.2.map Tree.ofValue

theorem holds_ofValues {slots : List FieldSlot} {rest : List (String × Value)}
    (hn : (keysOf slots).Nodup) (hrest : ∀ n ∈ keysOf slots, n ∉ keysOf rest) :
    (ofValues (recordOf slots ++ rest)).Holds slots := by
  intro s hs
  rw [← lookupKey_recordOf hn hrest s hs]
  exact lookupKey_map _ _ _

theorem fields_ofValue (es : List (String × Value)) :
    (Tree.ofValue (.record es)).fields = .ok (ofValues es).entries := by
  have hentries : (Tree.ofValue (.record es)).entries = .ok (Tree.ofValueFields es) := rfl
  unfold Tree.fields
  rw [hentries]
  show (Tree.ofValueFields es).mapM _ = _
  rw [Tree.ofValueFields_eq, List.mapM_map]
  exact Reading.mapM_eq_ok fun e _ => rfl

/-- A record that has no name twice is taken apart. -/
theorem of_record {declared : List String} {es : List (String × Value)} (h : (keysOf es).Nodup) :
    Fields.of declared (Tree.ofValue (.record es)) = .ok (ofValues es) := by
  have hkeys : keysOf (ofValues es).entries = keysOf es := by
    unfold keysOf ofValues
    rw [List.map_map]
    rfl
  have hnone : declared.find? (fun d => 1 < (keysOf (ofValues es).entries).count d) = none := by
    rw [List.find?_eq_none]
    intro d _
    have hle := List.nodup_iff_count_le_one.1 h d
    rw [hkeys]
    simpa using hle
  unfold Fields.of
  rw [fields_ofValue]
  dsimp only [bind, Except.bind]
  rw [hnone]
  rfl

theorem undeclared_ofValues (es : List (String × Value)) (declared : List String) :
    (ofValues es).undeclared declared =
      .ok (ofValues (es.filter fun e => e.1 ∉ declared)) := by
  have hfilter : (ofValues es).entries.filter (fun e => e.1 ∉ declared) =
      (ofValues (es.filter fun e => e.1 ∉ declared)).entries := by
    unfold ofValues
    rw [List.filter_map]
    rfl
  have hsettled : ∀ fs : List (String × Value),
      (ofValues fs).entries.mapM (fun e => do return (e.1, ← e.2.settle)) =
        (.ok (ofValues fs).entries : Reading (List (String × Tree))) := by
    intro fs
    unfold ofValues
    rw [List.mapM_map]
    refine Reading.mapM_eq_ok fun e _ => ?_
    show ((Tree.ofValue e.2).settle >>= _) = _
    rw [Tree.settle_ofValue]
    rfl
  unfold undeclared
  rw [hfilter, hsettled]
  rfl

/-- What is not declared is read as it stands, if no name stands there twice. -/
theorem extra_ofValues {es : List (String × Value)} {declared : List String} {t : Table Value}
    (ht : es.filter (fun e => e.1 ∉ declared) = t.entries) (hkeyed : ∀ v ∈ t.values, v.Keyed) :
    (ofValues es).extra declared = .ok t := by
  have hfilter : (ofValues es).entries.filter (fun e => e.1 ∉ declared) =
      (ofValues t.entries).entries := by
    unfold ofValues
    rw [← ht, List.filter_map]
    rfl
  have hvalues : (ofValues t.entries).entries.mapM (fun e => do return (e.1, ← e.2.value)) =
      (.ok (t.entries.map id) : Reading (List (String × Value))) := by
    unfold ofValues
    rw [List.mapM_map]
    refine Reading.mapM_eq_ok fun e he => ?_
    show ((Tree.ofValue e.2).value >>= _) = _
    rw [Tree.value_ofValue e.2 (hkeyed e.2 (List.mem_map_of_mem he))]
    rfl
  unfold extra
  rw [hfilter, hvalues, List.map_id]
  exact congrArg Except.ok t.ofList_entries

/-! ### Single fields -/

theorem optional_ofValue {read : Tree → Reading α} {v : Value} (hv : v ≠ .null) :
    (Tree.ofValue v).optional read = (read (Tree.ofValue v)).map some := by
  have habsent : (Tree.ofValue v).isAbsent = .ok false := by
    cases v with
    | null => exact absurd rfl hv
    | _ => rfl
  unfold Tree.optional
  rw [habsent]
  show (read (Tree.ofValue v) >>= fun a => pure (some a)) = _
  cases read (Tree.ofValue v) <;> rfl

section single

variable {f : Fields} {name : String}

theorem text_of_lookup {s : String}
    (h : lookupKey name f.entries = (some (Value.text s)).map Tree.ofValue) :
    f.text name = .ok s := by
  unfold Fields.text Fields.get
  rw [h]
  rfl

/-- A text that is left out when it is empty. -/
theorem text_of_lookup_nonempty {s : String}
    (h : lookupKey name f.entries =
      (if s.isEmpty then none else some (Value.text s)).map Tree.ofValue) :
    f.text name = .ok s := by
  unfold Fields.text Fields.get
  rw [h]
  by_cases hs : s.isEmpty = true
  · rw [if_pos hs]
    have he : s = "" := by simpa using hs
    rw [he]
    rfl
  · rw [if_neg hs]
    rfl

theorem text?_of_lookup {o : Option String}
    (h : lookupKey name f.entries = (Value.ofText? o).map Tree.ofValue) :
    f.text? name = .ok o := by
  unfold text? get? get
  rw [h]
  cases o <;> rfl

theorem truth?_of_lookup {o : Option Bool}
    (h : lookupKey name f.entries = (Value.ofBool? o).map Tree.ofValue) :
    f.truth? name = .ok o := by
  unfold truth? get? get
  rw [h]
  cases o <;> rfl

theorem texts_of_lookup {xs : List String}
    (h : lookupKey name f.entries = (Value.ofTexts? xs).map Tree.ofValue) :
    f.texts name = .ok xs := by
  unfold texts get
  rw [h, Value.ofTexts?]
  cases xs with
  | nil => rfl
  | cons x xs =>
    show (Tree.ofValueList ((x :: xs).map Value.text)).mapM Tree.asText = _
    have hall : (x :: xs).mapM ((Tree.asText ∘ Tree.ofValue) ∘ Value.text) =
        .ok ((x :: xs).map id) := Reading.mapM_eq_ok fun s _ => rfl
    rw [Tree.ofValueList_eq, List.mapM_map, List.mapM_map, hall, List.map_id]

/-- A whole number of 64 bits with sign. -/
theorem whole?_of_lookup {o : Option Int} (hsmall : ∀ i ∈ o, i < Nat.pow 2 63)
    (h : lookupKey name f.entries =
      (o.map fun i => Value.number (.int i)).map Tree.ofValue) :
    f.get? name Tree.whole = .ok o := by
  unfold get? get
  rw [h]
  cases o with
  | none => rfl
  | some i =>
    show (Tree.optional Tree.whole (Tree.number (.int i))) = _
    have hi := hsmall i rfl
    have hread : Tree.whole (Tree.number (.int i)) = .ok i := if_pos hi
    show (Tree.whole (Tree.number (.int i)) >>= fun i => pure (some i)) = _
    rw [hread]
    rfl

/-- A value; null is left out. -/
theorem value?_of_lookup {o : Option Value} (hkeyed : ∀ v ∈ o, v.Keyed)
    (h : lookupKey name f.entries = o.map Tree.ofValue) :
    f.get? name Tree.value = .ok (Value.trim o) := by
  unfold get? get
  rw [h]
  cases o with
  | none => rfl
  | some v =>
    show (Tree.ofValue v).optional Tree.value = _
    by_cases hnull : v = .null
    · rw [hnull]
      rfl
    · rw [optional_ofValue hnull, Tree.value_ofValue v (hkeyed v rfl),
        Value.trim_eq_self fun w hw => Option.some.inj hw ▸ hnull]
      rfl

/-! ### Tables -/

/-- The entries of a table are those of the record that it is written as. -/
theorem entries_ofValues_map (encode : α → Value) (t : Table α) :
    (ofValues (t.map encode).entries).entries =
      t.entries.map fun e => (e.1, Tree.ofValue (encode e.2)) := by
  show ((t.entries.map _).map _) = _
  rw [List.map_map]
  rfl

/-- A table is read by a reader of its fields, and left out when it is empty. -/
theorem get_of_lookup {encode : α → Value} {read : Tree → Reading (Table β)} {t : Table α}
    {u : Table β} (h : lookupKey name f.entries = (Value.ofTable? encode t).map Tree.ofValue)
    (hkeys : u.keys = t.keys)
    (hread : read (Tree.ofValue (.record (t.map encode).entries)) = .ok u) :
    f.get name read ∅ = .ok u := by
  unfold get
  rw [h, Value.ofTable?]
  by_cases ht : t.isEmpty = true
  · have hnone : u.keys = [] := by
      rw [hkeys, show t = ∅ from Table.ext (List.isEmpty_iff.1 ht)]
      rfl
    have hempty : u = ∅ := Table.ext (List.map_eq_nil_iff.1 hnone)
    rw [if_pos ht, hempty]
    rfl
  · rw [if_neg ht]
    exact hread

/-- A table whose values are read back from what they are written as. -/
theorem table_of_lookup {encode : α → Value} {read : Tree → Reading α} {t : Table α}
    (h : lookupKey name f.entries = (Value.ofTable? encode t).map Tree.ofValue)
    (hread : ∀ v ∈ t.values, read (Tree.ofValue (encode v)) = .ok v) :
    f.get name (Tree.table read) ∅ = .ok t := by
  refine get_of_lookup h rfl ?_
  have hall : (ofValues (t.map encode).entries).entries.mapM
      (fun e => do return (e.1, ← read e.2)) = (.ok (t.entries.map id) : Reading _) := by
    rw [entries_ofValues_map, List.mapM_map]
    refine Reading.mapM_eq_ok fun e he => ?_
    show (read (Tree.ofValue (encode e.2)) >>= _) = _
    rw [hread e.2 (List.mem_map_of_mem he)]
    rfl
  unfold Tree.table
  rw [fields_ofValue]
  show ((ofValues (t.map encode).entries).entries.mapM (fun e => do return (e.1, ← read e.2)) >>=
    fun es => pure (Table.ofList es)) = (_ : Reading (Table α))
  rw [hall, List.map_id]
  exact congrArg Except.ok t.ofList_entries

/-- A table whose values may be left out but are not, each read as something. -/
theorem registry_map_of_lookup {encode : α → Value} {blank : β} {read : Tree → Reading β}
    {g : α → β} {t : Table α}
    (h : lookupKey name f.entries = (Value.ofTable? encode t).map Tree.ofValue)
    (hread : ∀ v ∈ t.values, encode v ≠ .null ∧ read (Tree.ofValue (encode v)) = .ok (g v)) :
    f.registry name blank read = .ok (t.map g) := by
  refine get_of_lookup h (Table.keys_mapWithKey _ t) ?_
  have hall : (ofValues (t.map encode).entries).entries.mapM
      (fun e => do return (e.1, (← e.2.optional read).getD blank)) =
        (.ok (t.map g).entries : Reading _) := by
    rw [entries_ofValues_map, List.mapM_map]
    refine Reading.mapM_eq_ok fun e he => ?_
    obtain ⟨hnull, hv⟩ := hread e.2 (List.mem_map_of_mem he)
    show ((Tree.ofValue (encode e.2)).optional read >>= _) = _
    rw [optional_ofValue hnull, hv]
    rfl
  unfold Tree.registry
  show ((Tree.ofValue (.record (t.map encode).entries)).fields >>= fun es =>
    es.mapM (fun e => do return (e.1, (← e.2.optional read).getD blank)) >>=
      fun es => pure (Table.ofList es)) = (_ : Reading (Table β))
  rw [fields_ofValue]
  show ((ofValues (t.map encode).entries).entries.mapM
    (fun e => do return (e.1, (← e.2.optional read).getD blank)) >>=
      fun es => pure (Table.ofList es)) = (_ : Reading (Table β))
  rw [hall]
  exact congrArg Except.ok (t.map g).ofList_entries

/-- A table whose values may be left out but are not. -/
theorem registry_of_lookup {encode : α → Value} {blank : α} {read : Tree → Reading α} {t : Table α}
    (h : lookupKey name f.entries = (Value.ofTable? encode t).map Tree.ofValue)
    (hread : ∀ v ∈ t.values, encode v ≠ .null ∧ read (Tree.ofValue (encode v)) = .ok v) :
    f.registry name blank read = .ok t := by
  have hmap : f.registry name blank read = .ok (t.map id) := registry_map_of_lookup h hread
  have hsame : t.map id = t := Table.map_eq_self fun _ _ => rfl
  rw [hmap, hsame]

end single

end Fields

end SlotFrame
