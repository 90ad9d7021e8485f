import SlotFrame.Document.Tree
import SlotFrame.Proofs.Data.Tables

/-! # Values as trees and back

A value whose records have no repeated names is read back from its tree as it was, and its tree is
settled already. Whatever is read as a value is of this kind: where a document repeats a name, the
record that is read has it once.

Main definitions: `Value.Keyed`, `Reading.Yields`, `Tree.isOfValue`.

Main statements: `Value.Keyed.value_ofValue`, `Tree.settle_ofValue`, `Tree.yields_value`. -/

namespace SlotFrame

variable {α β : Type}

/-! ### Entries put together -/

theorem mem_putKey {key : String} {value : α} {e : String × α} {es : List (String × α)}
    (h : e ∈ putKey key value es) : e = (key, value) ∨ e ∈ es := by
  induction es with
  | nil => exact .inl (List.mem_singleton.1 h)
  | cons f es ih =>
    obtain ⟨k, v⟩ := f
    rw [putKey] at h
    by_cases hk : k = key
    · rw [if_pos hk, hk, List.mem_cons] at h
      exact h.imp_right (List.mem_cons_of_mem _)
    · rw [if_neg hk, List.mem_cons] at h
      rcases h with rfl | h
      · exact .inr List.mem_cons_self
      · exact (ih h).imp_right (List.mem_cons_of_mem _)

theorem mem_gatherKeys {e : String × α} {es : List (String × α)} (h : e ∈ gatherKeys es) :
    e ∈ es := by
  have hall : ∀ acc : List (String × α),
      e ∈ es.foldl (fun acc e => putKey e.1 e.2 acc) acc → e ∈ acc ∨ e ∈ es := by
    clear h
    induction es with
    | nil => exact fun acc h => .inl h
    | cons f es ih =>
      intro acc h
      rcases ih _ h with h | h
      · rcases mem_putKey h with rfl | h
        · exact .inr List.mem_cons_self
        · exact .inl h
      · exact .inr (List.mem_cons_of_mem _ h)
  exact (hall [] h).resolve_left List.not_mem_nil

theorem Table.mem_entries_ofList {e : String × α} {es : List (String × α)}
    (h : e ∈ (Table.ofList es).entries) : e ∈ es := mem_gatherKeys h

theorem Table.mem_values_ofList {v : α} {es : List (String × α)}
    (h : v ∈ (Table.ofList es).values) : ∃ key, (key, v) ∈ es := by
  obtain ⟨e, he, rfl⟩ := List.mem_map.1 h
  exact ⟨e.1, mem_gatherKeys he⟩

/-! ### What a reading may yield -/

/-- A reading all whose results have a property. -/
def Reading.Yields (P : α → Prop) (r : Reading α) : Prop := ∀ a, r = .ok a → P a

namespace Reading.Yields

variable {P : α → Prop} {Q : β → Prop} {r : Reading α} {f : α → Reading β}

theorem ok {a : α} (h : P a) : Yields P (.ok a) := by
  intro a' ha
  cases ha
  exact h

theorem pure {a : α} (h : P a) : Yields P (Pure.pure a : Reading α) := ok h

theorem error (e : Mismatch) : Yields P (.error e) := fun _ h => nomatch h

theorem bind (hr : Yields P r) (hf : ∀ a, P a → Yields Q (f a)) : Yields Q (r >>= f) := by
  cases r with
  | ok a => exact hf a (hr a rfl)
  | error e => exact error e

/-- What is read first does not matter. -/
theorem skip (hf : ∀ a, Yields Q (f a)) : Yields Q (r >>= f) := by
  cases r with
  | ok a => exact hf a
  | error e => exact error e

theorem mapM {g : α → Reading β} {xs : List α} (h : ∀ x ∈ xs, Yields Q (g x)) :
    Yields (fun ys => ∀ y ∈ ys, Q y) (xs.mapM g) := by
  induction xs with
  | nil =>
    rw [List.mapM_nil]
    exact pure fun y hy => absurd hy List.not_mem_nil
  | cons x xs ih =>
    rw [List.mapM_cons]
    refine bind (h x List.mem_cons_self) fun y hy => ?_
    refine bind (ih fun x hx => h x (List.mem_cons_of_mem _ hx)) fun ys hys => pure ?_
    intro z hz
    rcases List.mem_cons.1 hz with rfl | hz
    · exact hy
    · exact hys z hz

end Reading.Yields

/-- Readings that succeed one after the other. -/
theorem Reading.mapM_eq_ok {f : α → Reading β} {g : α → β} {xs : List α}
    (h : ∀ x ∈ xs, f x = .ok (g x)) : xs.mapM f = .ok (xs.map g) := by
  induction xs with
  | nil => rfl
  | cons x xs ih =>
    rw [List.mapM_cons, h x List.mem_cons_self, ih fun x hx => h x (List.mem_cons_of_mem _ hx)]
    rfl

/-! ### Values without repeated names -/

namespace Value

mutual

/-- No record within the value has a name twice. -/
def Keyed : Value → Prop
  | list xs => KeyedList xs
  | record fs => (keysOf fs).Nodup ∧ KeyedFields fs
  | _ => True

/-- No record within the members has a name twice. -/
def KeyedList : List Value → Prop
  | [] => True
  | v :: rest => Keyed v ∧ KeyedList rest

/-- No record within the fields has a name twice. -/
def KeyedFields : List (String × Value) → Prop
  | [] => True
  | (_, v) :: rest => Keyed v ∧ KeyedFields rest

end

theorem keyedFields_iff {fs : List (String × Value)} :
    KeyedFields fs ↔ ∀ f ∈ fs, f.2.Keyed := by
  induction fs with
  | nil => simp [KeyedFields]
  | cons f fs ih => simp [KeyedFields, ih]

end Value

namespace Tree

theorem ofValueFields_eq (fs : List (String × Value)) :
    ofValueFields fs = fs.map fun f => (.text f.1, ofValue f.2) := by
  induction fs with
  | nil => rfl
  | cons f fs ih => rw [ofValueFields, ih, List.map_cons]

theorem ofValueList_eq (vs : List Value) : ofValueList vs = vs.map ofValue := by
  induction vs with
  | nil => rfl
  | cons v vs ih => rw [ofValueList, ih, List.map_cons]

mutual

/-- The tree of a value is settled. -/
theorem settle_ofValue : (v : Value) → (ofValue v).settle = .ok (ofValue v)
  | .null => rfl
  | .bool _ => rfl
  | .number _ => rfl
  | .text _ => rfl
  | .list xs => by
    rw [ofValue, settle, settleList_ofValueList xs]
    rfl
  | .record fs => by
    rw [ofValue, settle, settleEntries_ofValueFields fs]
    rfl

theorem settleList_ofValueList : (vs : List Value) →
    settleList (ofValueList vs) = .ok (ofValueList vs)
  | [] => rfl
  | v :: vs => by
    rw [ofValueList, settleList, settle_ofValue v, settleList_ofValueList vs]
    rfl

theorem settleEntries_ofValueFields : (fs : List (String × Value)) →
    settleEntries (ofValueFields fs) = .ok (ofValueFields fs)
  | [] => rfl
  | (k, v) :: fs => by
    rw [ofValueFields, settleEntries, settle_ofValue v, settleEntries_ofValueFields fs]
    rfl

end

mutual

/-- A value is read back from its tree if no record within it has a name twice. -/
theorem value_ofValue : (v : Value) → v.Keyed → (ofValue v).value = .ok v
  | .null, _ => rfl
  | .bool _, _ => rfl
  | .number _, _ => rfl
  | .text _, _ => rfl
  | .list xs, h => by
    rw [Value.Keyed] at h
    rw [ofValue, value, valueList_ofValueList xs h]
    rfl
  | .record fs, h => by
    rw [Value.Keyed] at h
    rw [ofValue, value, valueEntries_ofValueFields fs h.2]
    show Except.ok (Value.record (gatherKeys fs)) = _
    rw [gatherKeys_of_nodup h.1]

theorem valueList_ofValueList : (vs : List Value) → Value.KeyedList vs →
    valueList (ofValueList vs) = .ok vs
  | [], _ => rfl
  | v :: vs, h => by
    rw [Value.KeyedList] at h
    rw [ofValueList, valueList, value_ofValue v h.1, valueList_ofValueList vs h.2]
    rfl

theorem valueEntries_ofValueFields : (fs : List (String × Value)) → Value.KeyedFields fs →
    valueEntries (ofValueFields fs) = .ok fs
  | [], _ => rfl
  | (k, v) :: fs, h => by
    rw [Value.KeyedFields] at h
    rw [ofValueFields, valueEntries, value_ofValue v h.1, valueEntries_ofValueFields fs h.2]
    rfl

end

mutual

/-- Whatever is read as a value names nothing twice. -/
theorem yields_value : (t : Tree) → Reading.Yields Value.Keyed t.value
  | .null => .ok trivial
  | .bool _ => .ok trivial
  | .number _ => .ok trivial
  | .unbounded => .ok trivial
  | .text _ => .ok trivial
  | .scalar s => by
    rw [value]
    refine .skip fun v => ?_
    cases v <;> first | exact .ok trivial | exact .error _
  | .list tagged xs => by
    rw [value]
    cases tagged with
    | true => exact .error _
    | false => exact (yields_valueList xs).bind fun vs hvs => .pure hvs
  | .record tagged es => by
    rw [value]
    cases tagged with
    | true => exact .error _
    | false =>
      refine (yields_valueEntries es).bind fun fs hfs => .pure ⟨nodup_keysOf_gatherKeys fs, ?_⟩
      rw [Value.keyedFields_iff] at hfs ⊢
      exact fun f hf => hfs f (mem_gatherKeys hf)
  | .broken => .error _

theorem yields_valueList : (ts : List Tree) → Reading.Yields Value.KeyedList (valueList ts)
  | [] => .ok trivial
  | t :: ts => by
    rw [valueList]
    exact (yields_value t).bind fun v hv => (yields_valueList ts).bind fun vs hvs => .pure ⟨hv, hvs⟩

theorem yields_valueEntries : (es : List (Key × Tree)) →
    Reading.Yields Value.KeyedFields (valueEntries es)
  | [] => .ok trivial
  | (k, t) :: es => by
    rw [valueEntries]
    refine .skip fun key => ?_
    exact (yields_value t).bind fun v hv =>
      (yields_valueEntries es).bind fun fs hfs => .pure ⟨hv, hfs⟩

end

/-- Null alone is read as null. -/
theorem yields_value_ne_null {v : Value} (hv : v ≠ .null) :
    Reading.Yields (· ≠ Value.null) (ofValue v).value := by
  cases v with
  | null => exact absurd rfl hv
  | bool b => exact .ok nofun
  | number n => exact .ok nofun
  | text s => exact .ok nofun
  | list xs =>
    rw [ofValue, value]
    exact .skip fun vs => .pure nofun
  | record fs =>
    rw [ofValue, value]
    exact .skip fun es => .pure nofun

/-! ### Telling the tree of a value -/

mutual

/-- Whether a tree is that of a value. -/
def isOfValue : Value → Tree → Bool
  | .null, null => true
  | .bool b, bool c => c = b
  | .number n, number m => m = n
  | .text s, text t => t = s
  | .list vs, list false ts => isOfValueList vs ts
  | .record fs, record false es => isOfValueFields fs es
  | _, _ => false

/-- Whether trees are those of a list's members. -/
def isOfValueList : List Value → List Tree → Bool
  | [], [] => true
  | v :: vs, t :: ts => isOfValue v t && isOfValueList vs ts
  | _, _ => false

/-- Whether entries are those of a record's fields. -/
def isOfValueFields : List (String × Value) → List (Key × Tree) → Bool
  | [], [] => true
  | (k, v) :: fs, (.text k', t) :: es => k' = k && isOfValue v t && isOfValueFields fs es
  | _, _ => false

end

mutual

theorem isOfValue_iff : (v : Value) → (t : Tree) → (isOfValue v t = true ↔ t = ofValue v)
  | .null, t => by cases t <;> simp [isOfValue, ofValue]
  | .bool b, t => by cases t <;> simp [isOfValue, ofValue]
  | .number n, t => by cases t <;> simp [isOfValue, ofValue]
  | .text s, t => by cases t <;> simp [isOfValue, ofValue]
  | .list vs, t => by
    cases t with
    | list tagged ts =>
      cases tagged with
      | true => simp [isOfValue, ofValue]
      | false => simp [isOfValue, ofValue, isOfValueList_iff vs ts]
    | _ => simp [isOfValue, ofValue]
  | .record fs, t => by
    cases t with
    | record tagged es =>
      cases tagged with
      | true => simp [isOfValue, ofValue]
      | false => simp [isOfValue, ofValue, isOfValueFields_iff fs es]
    | _ => simp [isOfValue, ofValue]

theorem isOfValueList_iff : (vs : List Value) → (ts : List Tree) →
    (isOfValueList vs ts = true ↔ ts = ofValueList vs)
  | [], ts => by cases ts <;> simp [isOfValueList, ofValueList]
  | v :: vs, ts => by
    cases ts with
    | nil => simp [isOfValueList, ofValueList]
    | cons t ts =>
      simp [isOfValueList, ofValueList, isOfValue_iff v t, isOfValueList_iff vs ts]

theorem isOfValueFields_iff : (fs : List (String × Value)) → (es : List (Key × Tree)) →
    (isOfValueFields fs es = true ↔ es = ofValueFields fs)
  | [], es => by cases es <;> simp [isOfValueFields, ofValueFields]
  | (k, v) :: fs, es => by
    cases es with
    | nil => simp [isOfValueFields, ofValueFields]
    | cons e es =>
      obtain ⟨key, t⟩ := e
      cases key with
      | text k' =>
        simp [isOfValueFields, ofValueFields, isOfValue_iff v t, isOfValueFields_iff fs es]
      | _ => simp [isOfValueFields, ofValueFields]

end

instance (v : Value) (t : Tree) : Decidable (t = ofValue v) :=
  decidable_of_iff (isOfValue v t = true) (isOfValue_iff v t)

instance {ε : Type} (v : Value) : (r : Except ε (Tree × List α)) →
    Decidable (r = .ok (ofValue v, []))
  | .ok (t, []) => decidable_of_iff (t = ofValue v) (by simp)
  | .ok (_, _ :: _) => .isFalse (by simp)
  | .error _ => .isFalse nofun

end Tree

end SlotFrame
