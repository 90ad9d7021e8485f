/-! # Tables in order of insertion

An association list whose order is part of its meaning, and the table of distinct keys built on it.
`List.putKey` keeps the place of a key that is already there and appends a new one, so a table that
is written twice under one key keeps the first place and the last value.

Main statements: `Table.get?_insert` (a write is read back, all else is kept),
`Table.keys_insert` (where a written key stands), `Table.mem_keys_iff` (a key is there exactly
when it is read) and `Table.ext_get?` (order and readings determine a table). -/

namespace SlotFrame

variable {α β : Type}

/-! ### Association lists -/

/-- The first value under a key. -/
def lookupKey (key : String) : List (String × α) → Option α
  | [] => none
  | (k, v) :: rest => if k = key then some v else lookupKey key rest

/-- Replaces the value under a key in place, or appends the entry. -/
def putKey (key : String) (value : α) : List (String × α) → List (String × α)
  | [] => [(key, value)]
  | (k, v) :: rest => if k = key then (k, value) :: rest else (k, v) :: putKey key value rest

/-- Drops every entry under a key; what follows moves up. -/
def dropKey (key : String) : List (String × α) → List (String × α)
  | [] => []
  | (k, v) :: rest => if k = key then dropKey key rest else (k, v) :: dropKey key rest

/-- The keys, in order. -/
def keysOf (entries : List (String × α)) : List String := entries.map Prod.fst

/-- Entries put one after the other into an empty list: first place, last value. -/
def gatherKeys (entries : List (String × α)) : List (String × α) :=
  entries.foldl (fun acc e => putKey e.1 e.2 acc) []

@[simp] theorem keysOf_nil : keysOf ([] : List (String × α)) = [] := rfl

@[simp] theorem keysOf_cons (e : String × α) (rest : List (String × α)) :
    keysOf (e :: rest) = e.1 :: keysOf rest := rfl

@[simp] theorem keysOf_append (xs ys : List (String × α)) :
    keysOf (xs ++ ys) = keysOf xs ++ keysOf ys := List.map_append

theorem keysOf_putKey (key : String) (value : α) (entries : List (String × α)) :
    keysOf (putKey key value entries) =
      if key ∈ keysOf entries then keysOf entries else keysOf entries ++ [key] := by
  induction entries with
  | nil => simp [putKey]
  | cons e rest ih =>
    obtain ⟨k, v⟩ := e
    by_cases h : k = key
    · subst h; simp [putKey]
    · have h' : key ≠ k := fun e => h e.symm
      by_cases hm : key ∈ keysOf rest
      · simp [putKey, h, ih, hm]
      · simp [putKey, h, h', ih, hm]

theorem nodup_keysOf_putKey (key : String) (value : α) {entries : List (String × α)}
    (h : (keysOf entries).Nodup) : (keysOf (putKey key value entries)).Nodup := by
  rw [keysOf_putKey]
  split
  · exact h
  · rename_i hk
    rw [List.nodup_append]
    refine ⟨h, by simp, ?_⟩
    intro a ha b hb
    simp only [List.mem_singleton] at hb
    subst hb
    intro e
    exact hk (e ▸ ha)

theorem lookupKey_putKey (key k' : String) (value : α) (entries : List (String × α)) :
    lookupKey k' (putKey key value entries) =
      if k' = key then some value else lookupKey k' entries := by
  induction entries with
  | nil =>
    by_cases h : k' = key
    · simp [putKey, lookupKey, h]
    · have : key ≠ k' := fun e => h e.symm
      simp [putKey, lookupKey, h, this]
  | cons e rest ih =>
    obtain ⟨k, v⟩ := e
    by_cases h : k = key
    · subst h
      by_cases h' : k' = k
      · subst h'; simp [putKey, lookupKey]
      · have : k ≠ k' := fun e => h' e.symm
        simp [putKey, lookupKey, h', this]
    · by_cases h' : k = k'
      · subst h'; simp [putKey, lookupKey, h]
      · simp [putKey, lookupKey, h, h', ih]

theorem lookupKey_eq_none_iff (key : String) (entries : List (String × α)) :
    lookupKey key entries = none ↔ key ∉ keysOf entries := by
  induction entries with
  | nil => simp [lookupKey, keysOf]
  | cons e rest ih =>
    obtain ⟨k, v⟩ := e
    by_cases h : k = key
    · subst h; simp [lookupKey, keysOf]
    · have h' : key ≠ k := fun e => h e.symm
      simp only [keysOf] at ih
      simp [lookupKey, keysOf, h, h', ih]

theorem lookupKey_append (key : String) (xs ys : List (String × α)) :
    lookupKey key (xs ++ ys) = (lookupKey key xs).or (lookupKey key ys) := by
  induction xs with
  | nil => simp [lookupKey]
  | cons e rest ih =>
    obtain ⟨k, v⟩ := e
    by_cases h : k = key
    · simp [lookupKey, h]
    · simp [lookupKey, h, ih]

theorem putKey_of_notMem {key : String} {value : α} {entries : List (String × α)}
    (h : key ∉ keysOf entries) : putKey key value entries = entries ++ [(key, value)] := by
  induction entries with
  | nil => rfl
  | cons e rest ih =>
    obtain ⟨k, v⟩ := e
    simp only [keysOf, List.map_cons, List.mem_cons, not_or] at h
    have hk : k ≠ key := fun e => h.1 e.symm
    simp [putKey, hk, ih h.2]

theorem keysOf_dropKey (key : String) (entries : List (String × α)) :
    keysOf (dropKey key entries) = (keysOf entries).filter (· ≠ key) := by
  induction entries with
  | nil => rfl
  | cons e rest ih =>
    obtain ⟨k, v⟩ := e
    simp only [keysOf] at ih
    by_cases h : k = key
    · simp [dropKey, keysOf, h, ih]
    · simp [dropKey, keysOf, h, ih]

theorem lookupKey_dropKey (key k' : String) (entries : List (String × α)) :
    lookupKey k' (dropKey key entries) = if k' = key then none else lookupKey k' entries := by
  induction entries with
  | nil => simp [dropKey, lookupKey]
  | cons e rest ih =>
    obtain ⟨k, v⟩ := e
    by_cases h : k = key
    · subst h
      by_cases h' : k' = k
      · subst h'; simp [dropKey, ih]
      · have : k ≠ k' := fun e => h' e.symm
        simp [dropKey, lookupKey, ih, h', this]
    · by_cases h' : k = k'
      · subst h'; simp [dropKey, lookupKey, h]
      · simp [dropKey, lookupKey, h, h', ih]

/-- Entries of distinct keys are determined by the order of the keys and what is read under them. -/
theorem eq_of_keysOf_eq {xs ys : List (String × α)} (hn : (keysOf xs).Nodup)
    (hk : keysOf xs = keysOf ys) (hl : ∀ key, lookupKey key xs = lookupKey key ys) : xs = ys := by
  induction xs generalizing ys with
  | nil => cases ys with
    | nil => rfl
    | cons e ys => simp at hk
  | cons e xs ih => cases ys with
    | nil => simp at hk
    | cons f ys =>
      obtain ⟨k, v⟩ := e
      obtain ⟨k', v'⟩ := f
      simp only [keysOf_cons, List.cons.injEq] at hk
      obtain ⟨rfl, hk⟩ := hk
      rw [keysOf_cons, List.nodup_cons] at hn
      have hv : v = v' := by simpa [lookupKey] using hl k
      have hrest : ∀ key, lookupKey key xs = lookupKey key ys := by
        intro key
        by_cases h : k = key
        · subst h
          rw [(lookupKey_eq_none_iff k xs).2 hn.1, (lookupKey_eq_none_iff k ys).2 (hk ▸ hn.1)]
        · simpa [lookupKey, h] using hl key
      rw [hv, ih hn.2 hk hrest]

/-- Putting entries of distinct keys one after the other gives them back. -/
theorem foldl_putKey_of_nodup (entries acc : List (String × α))
    (h : (keysOf (acc ++ entries)).Nodup) :
    entries.foldl (fun acc e => putKey e.1 e.2 acc) acc = acc ++ entries := by
  induction entries generalizing acc with
  | nil => simp
  | cons e rest ih =>
    have hk : e.1 ∉ keysOf acc := by
      simp only [keysOf, List.map_append, List.map_cons, List.nodup_append] at h
      intro hm
      exact h.2.2 _ hm _ (List.mem_cons_self ..) rfl
    rw [List.foldl_cons, putKey_of_notMem hk, ih]
    · simp
    · simpa using h

theorem gatherKeys_of_nodup {entries : List (String × α)} (h : (keysOf entries).Nodup) :
    gatherKeys entries = entries := by
  simpa [gatherKeys] using foldl_putKey_of_nodup entries [] (by simpa using h)

theorem nodup_keysOf_foldl_putKey (entries acc : List (String × α))
    (h : (keysOf acc).Nodup) :
    (keysOf (entries.foldl (fun acc e => putKey e.1 e.2 acc) acc)).Nodup := by
  induction entries generalizing acc with
  | nil => simpa using h
  | cons e rest ih => exact ih _ (nodup_keysOf_putKey _ _ h)

theorem nodup_keysOf_gatherKeys (entries : List (String × α)) :
    (keysOf (gatherKeys entries)).Nodup :=
  nodup_keysOf_foldl_putKey entries [] (by simp [keysOf])

/-! ### Tables -/

/-- A finite map from names that remembers the order of first insertion. -/
@[ext] structure Table (α : Type) where
  /-- The entries, in order. -/
  entries : List (String × α)
  /-- No name stands twice. -/
  nodup : (keysOf entries).Nodup

namespace Table

instance [DecidableEq α] : DecidableEq (Table α) := fun a b =>
  if h : a.entries = b.entries then isTrue (Table.ext h)
  else isFalse fun e => h (congrArg entries e)

instance [Repr α] : Repr (Table α) := ⟨fun t n => reprPrec t.entries n⟩

/-- The table without entries. -/
def empty : Table α := ⟨[], by simp [keysOf]⟩

instance : EmptyCollection (Table α) := ⟨empty⟩
instance : Inhabited (Table α) := ⟨empty⟩

/-- The names, in order. -/
def keys (t : Table α) : List String := keysOf t.entries

/-- The values, in the order of their names. -/
def values (t : Table α) : List α := t.entries.map Prod.snd

/-- The number of entries. -/
def size (t : Table α) : Nat := t.entries.length

/-- Whether there is no entry. -/
def isEmpty (t : Table α) : Bool := t.entries.isEmpty

/-- The value under a name. -/
def get? (t : Table α) (key : String) : Option α := lookupKey key t.entries

/-- Whether a name has an entry. -/
def contains (t : Table α) (key : String) : Bool := (t.get? key).isSome

/-- Writes a value: in place for a name that is there, else at the end. -/
def insert (t : Table α) (key : String) (value : α) : Table α :=
  ⟨putKey key value t.entries, nodup_keysOf_putKey key value t.nodup⟩

/-- Removes a name; the order of the others is kept. -/
def erase (t : Table α) (key : String) : Table α :=
  ⟨dropKey key t.entries, by rw [keysOf_dropKey]; exact t.nodup.filter _⟩

/-- Entries written one after the other. -/
def ofList (entries : List (String × α)) : Table α :=
  ⟨gatherKeys entries, nodup_keysOf_gatherKeys entries⟩

/-- Writes a value only for a name that has none. -/
def insertNew (t : Table α) (key : String) (value : α) : Table α :=
  if t.contains key then t else t.insert key value

/-- Writes the entries of another table over this one. -/
def overwrite (t u : Table α) : Table α := u.entries.foldl (fun t e => t.insert e.1 e.2) t

/-- Adds the entries of another table whose names are not there yet. -/
def addMissing (t u : Table α) : Table α := u.entries.foldl (fun t e => t.insertNew e.1 e.2) t

/-- Changes every value, with its name in view. -/
def mapWithKey (f : String → α → β) (t : Table α) : Table β :=
  ⟨t.entries.map fun e => (e.1, f e.1 e.2), by
    have h : keysOf (t.entries.map fun e => (e.1, f e.1 e.2)) = keysOf t.entries := by
      simp [keysOf, Function.comp_def]
    rw [h]; exact t.nodup⟩

/-- Changes every value. -/
def map (f : α → β) (t : Table α) : Table β := t.mapWithKey fun _ v => f v

/-- Changes the value under one name. -/
def modify (t : Table α) (key : String) (f : α → α) : Table α :=
  t.mapWithKey fun k v => if k = key then f v else v

/-- Rearranges a table by a stable sort of its entries. -/
def sortBy (le : String × α → String × α → Bool) (t : Table α) : Table α :=
  ⟨t.entries.mergeSort le, by
    have h : (keysOf (t.entries.mergeSort le)).Perm (keysOf t.entries) :=
      (List.mergeSort_perm t.entries le).map _
    exact h.nodup_iff.2 t.nodup⟩

@[simp] theorem keys_empty : (∅ : Table α).keys = [] := rfl

@[simp] theorem entries_empty : (∅ : Table α).entries = [] := rfl

@[simp] theorem get?_empty (key : String) : (∅ : Table α).get? key = none := rfl

theorem get?_insert (t : Table α) (key k' : String) (value : α) :
    (t.insert key value).get? k' = if k' = key then some value else t.get? k' :=
  lookupKey_putKey key k' value t.entries

theorem keys_insert (t : Table α) (key : String) (value : α) :
    (t.insert key value).keys = if key ∈ t.keys then t.keys else t.keys ++ [key] :=
  keysOf_putKey key value t.entries

theorem get?_erase (t : Table α) (key k' : String) :
    (t.erase key).get? k' = if k' = key then none else t.get? k' :=
  lookupKey_dropKey key k' t.entries

theorem keys_erase (t : Table α) (key : String) :
    (t.erase key).keys = t.keys.filter (· ≠ key) :=
  keysOf_dropKey key t.entries

theorem mem_keys_iff (t : Table α) (key : String) : key ∈ t.keys ↔ (t.get? key).isSome := by
  have h := lookupKey_eq_none_iff key t.entries
  rw [← Option.ne_none_iff_isSome]
  exact ⟨fun hm e => h.1 e hm, fun hn => Classical.byContradiction fun hm => hn (h.2 hm)⟩

theorem contains_iff (t : Table α) (key : String) : t.contains key = true ↔ key ∈ t.keys :=
  (t.mem_keys_iff key).symm

/-- The order of the names and what is read under them determine a table. -/
theorem ext_get? {t u : Table α} (hk : t.keys = u.keys) (hg : ∀ key, t.get? key = u.get? key) :
    t = u :=
  Table.ext (eq_of_keysOf_eq t.nodup hk hg)

theorem ofList_entries (t : Table α) : ofList t.entries = t :=
  Table.ext (gatherKeys_of_nodup t.nodup)

@[simp] theorem keys_mapWithKey (f : String → α → β) (t : Table α) :
    (t.mapWithKey f).keys = t.keys := by
  simp [keys, mapWithKey, keysOf, Function.comp_def]

end Table

end SlotFrame
