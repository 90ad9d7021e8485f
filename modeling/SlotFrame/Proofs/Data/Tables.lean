import SlotFrame.Data.Table

/-! # Tables written over one another

Two rules put tables together: one keeps what is there and adds what is missing, the other writes
over what is there. They differ in what is read under a name and agree in where the names stand, at
the place of their first occurrence.

Main statements: `Table.get?_foldl_addMissing`, `Table.keys_foldl_addMissing` (the first of some
tables wins), `Table.get?_foldl_overwrite`, `Table.keys_foldl_overwrite` (the last one wins) and
`Table.get?_ofList`, `Table.keys_ofList` (entries that may repeat a name). -/

namespace SlotFrame

variable {α β : Type}

/-! ### First occurrences -/

theorem eraseDups_of_nodup {xs : List String} (h : xs.Nodup) : xs.eraseDups = xs := by
  induction xs with
  | nil => rfl
  | cons x xs ih =>
    rw [List.nodup_cons] at h
    have hx : xs.filter (fun y => !y == x) = xs := by
      rw [List.filter_eq_self]
      intro y hy
      have hne : y ≠ x := fun e => h.1 (e ▸ hy)
      simpa using hne
    rw [List.eraseDups_cons, hx, ih h.2]

theorem nodup_eraseDups (xs : List String) : xs.eraseDups.Nodup := by
  match xs with
  | [] => exact List.nodup_nil
  | x :: xs =>
    rw [List.eraseDups_cons, List.nodup_cons]
    refine ⟨?_, nodup_eraseDups _⟩
    rw [List.mem_eraseDups]
    simp
  termination_by xs.length
  decreasing_by exact Nat.lt_succ_of_le (List.length_filter_le _ _)

/-- Repetitions in front count once. -/
theorem eraseDups_eraseDups_append (xs ys : List String) :
    (xs.eraseDups ++ ys).eraseDups = (xs ++ ys).eraseDups := by
  have hmem : ys.removeAll xs.eraseDups = ys.removeAll xs := by
    simp only [List.removeAll]
    apply List.filter_congr
    intro y _
    simp [List.mem_eraseDups]
  rw [List.eraseDups_append, List.eraseDups_append, hmem, eraseDups_of_nodup (nodup_eraseDups xs)]

/-! ### One entry -/

theorem mem_of_lookupKey {key : String} {value : α} {es : List (String × α)}
    (h : lookupKey key es = some value) : (key, value) ∈ es := by
  induction es with
  | nil => cases h
  | cons e es ih =>
    obtain ⟨k, v⟩ := e
    by_cases hk : k = key
    · subst hk
      have hv : v = value := by simpa [lookupKey] using h
      rw [hv]
      exact List.mem_cons_self
    · have hrest : lookupKey key es = some value := by simpa [lookupKey, hk] using h
      exact List.mem_cons_of_mem _ (ih hrest)

theorem lookupKey_mapWithKey (f : String → α → β) (key : String) (es : List (String × α)) :
    lookupKey key (es.map fun e => (e.1, f e.1 e.2)) = (lookupKey key es).map (f key) := by
  induction es with
  | nil => rfl
  | cons e es ih =>
    by_cases h : e.1 = key
    · simp [lookupKey, h]
    · simp [lookupKey, h, ih]

theorem lookupKey_map (f : α → β) (key : String) (es : List (String × α)) :
    lookupKey key (es.map fun e => (e.1, f e.2)) = (lookupKey key es).map f :=
  lookupKey_mapWithKey (fun _ => f) key es

theorem lookupKey_flatMap (f : β → List (String × α)) (xs : List β) (key : String) :
    lookupKey key (xs.flatMap f) = xs.findSome? fun x => lookupKey key (f x) := by
  induction xs with
  | nil => rfl
  | cons x xs ih =>
    rw [List.flatMap_cons, lookupKey_append, ih, List.findSome?_cons]
    cases lookupKey key (f x) <;> rfl

/-- Of entries of distinct keys each is the one that is read. -/
theorem lookupKey_of_mem {key : String} {value : α} {es : List (String × α)}
    (hn : (keysOf es).Nodup) (h : (key, value) ∈ es) : lookupKey key es = some value := by
  induction es with
  | nil => cases h
  | cons e es ih =>
    obtain ⟨k, v⟩ := e
    rw [keysOf_cons, List.nodup_cons] at hn
    rcases List.mem_cons.1 h with he | hmem
    · cases he
      simp [lookupKey]
    · have hk : k ≠ key := by
        rintro rfl
        have hkey : k ∈ keysOf es := List.mem_map_of_mem hmem
        exact hn.1 hkey
      rw [lookupKey, if_neg hk]
      exact ih hn.2 hmem

namespace Table

theorem mem_values_of_get? {t : Table α} {key : String} {value : α}
    (h : t.get? key = some value) : value ∈ t.values :=
  List.mem_map_of_mem (mem_of_lookupKey h)

theorem mem_values_iff (t : Table α) (value : α) :
    value ∈ t.values ↔ ∃ key, t.get? key = some value := by
  constructor
  · intro h
    obtain ⟨e, he, rfl⟩ := List.mem_map.1 h
    exact ⟨e.1, lookupKey_of_mem t.nodup he⟩
  · rintro ⟨key, h⟩
    exact mem_values_of_get? h

theorem nodup_keys (t : Table α) : t.keys.Nodup := t.nodup

theorem values_map (f : α → β) (t : Table α) : (t.map f).values = t.values.map f := by
  unfold values map mapWithKey
  rw [List.map_map, List.map_map]
  rfl

theorem map_eq_self {f : α → α} {t : Table α} (h : ∀ a ∈ t.values, f a = a) : t.map f = t := by
  have hentries : (t.entries.map fun e => (e.1, f e.2)) = t.entries.map id := by
    apply List.map_congr_left
    intro e he
    rw [h e.2 (List.mem_map_of_mem he)]
    rfl
  apply Table.ext
  rw [List.map_id] at hentries
  exact hentries

theorem keys_insert_eraseDups (t : Table α) (key : String) (value : α) :
    (t.insert key value).keys = (t.keys ++ [key]).eraseDups := by
  rw [keys_insert, List.eraseDups_append, eraseDups_of_nodup t.nodup_keys]
  by_cases h : key ∈ t.keys
  · simp [h, List.removeAll]
  · simp [h, List.removeAll, List.eraseDups_cons]

theorem get?_insertNew (t : Table α) (key k' : String) (value : α) :
    (t.insertNew key value).get? k' = (t.get? k').or (if k' = key then some value else none) := by
  unfold insertNew
  by_cases h : t.contains key = true
  · rw [if_pos h]
    by_cases hk : k' = key
    · subst hk
      rw [contains, Option.isSome_iff_exists] at h
      obtain ⟨v, hv⟩ := h
      simp [hv]
    · simp [hk]
  · rw [if_neg h, get?_insert]
    by_cases hk : k' = key
    · subst hk
      have hnone : t.get? k' = none := by simpa [contains] using h
      simp [hnone]
    · simp [hk]

theorem keys_insertNew (t : Table α) (key : String) (value : α) :
    (t.insertNew key value).keys = (t.keys ++ [key]).eraseDups := by
  unfold insertNew
  by_cases h : t.contains key = true
  · have hmem : key ∈ t.keys := (t.contains_iff key).1 h
    rw [if_pos h, List.eraseDups_append, eraseDups_of_nodup t.nodup_keys]
    simp [hmem, List.removeAll]
  · rw [if_neg h, keys_insert_eraseDups]

/-- Writing the value that stands there changes nothing. -/
theorem insert_eq_self {t : Table α} {key : String} {value : α} (h : t.get? key = some value) :
    t.insert key value = t := by
  have hmem : key ∈ t.keys := by
    rw [mem_keys_iff, h]
    rfl
  apply ext_get?
  · rw [keys_insert, if_pos hmem]
  · intro n
    rw [get?_insert]
    by_cases hn : n = key
    · rw [if_pos hn, hn, h]
    · rw [if_neg hn]

/-! ### Two tables -/

theorem get?_foldl_insertNew (es : List (String × α)) (t : Table α) (key : String) :
    (es.foldl (fun t e => t.insertNew e.1 e.2) t).get? key =
      (t.get? key).or (lookupKey key es) := by
  induction es generalizing t with
  | nil => simp [lookupKey]
  | cons e es ih =>
    rw [List.foldl_cons, ih, get?_insertNew, Option.or_assoc]
    congr 1
    by_cases h : e.1 = key
    · simp [lookupKey, h]
    · have h' : ¬ key = e.1 := fun he => h he.symm
      simp [lookupKey, h, h']

theorem keys_foldl_insertNew (es : List (String × α)) (t : Table α) :
    (es.foldl (fun t e => t.insertNew e.1 e.2) t).keys = (t.keys ++ keysOf es).eraseDups := by
  induction es generalizing t with
  | nil => simp [eraseDups_of_nodup t.nodup_keys]
  | cons e es ih =>
    rw [List.foldl_cons, ih, keys_insertNew, eraseDups_eraseDups_append]
    simp

theorem get?_foldl_insert {es : List (String × α)} (h : (keysOf es).Nodup) (t : Table α)
    (key : String) :
    (es.foldl (fun t e => t.insert e.1 e.2) t).get? key = (lookupKey key es).or (t.get? key) := by
  induction es generalizing t with
  | nil => simp [lookupKey]
  | cons e es ih =>
    rw [keysOf_cons, List.nodup_cons] at h
    rw [List.foldl_cons, ih h.2, get?_insert]
    by_cases hk : e.1 = key
    · subst hk
      have hnone : lookupKey e.1 es = none := (lookupKey_eq_none_iff e.1 es).2 h.1
      simp [lookupKey, hnone]
    · have hk' : ¬ key = e.1 := fun he => hk he.symm
      simp [lookupKey, hk, hk']

theorem keys_foldl_insert (es : List (String × α)) (t : Table α) :
    (es.foldl (fun t e => t.insert e.1 e.2) t).keys = (t.keys ++ keysOf es).eraseDups := by
  induction es generalizing t with
  | nil => simp [eraseDups_of_nodup t.nodup_keys]
  | cons e es ih =>
    rw [List.foldl_cons, ih, keys_insert_eraseDups, eraseDups_eraseDups_append]
    simp

theorem get?_addMissing (t u : Table α) (key : String) :
    (t.addMissing u).get? key = (t.get? key).or (u.get? key) :=
  get?_foldl_insertNew u.entries t key

theorem keys_addMissing (t u : Table α) :
    (t.addMissing u).keys = (t.keys ++ u.keys).eraseDups :=
  keys_foldl_insertNew u.entries t

theorem get?_overwrite (t u : Table α) (key : String) :
    (t.overwrite u).get? key = (u.get? key).or (t.get? key) :=
  get?_foldl_insert u.nodup t key

theorem keys_overwrite (t u : Table α) :
    (t.overwrite u).keys = (t.keys ++ u.keys).eraseDups :=
  keys_foldl_insert u.entries t

/-! ### Entries that may repeat a name -/

theorem entries_foldl_insert (es : List (String × α)) (t : Table α) :
    (es.foldl (fun t e => t.insert e.1 e.2) t).entries =
      es.foldl (fun acc e => putKey e.1 e.2 acc) t.entries := by
  induction es generalizing t with
  | nil => rfl
  | cons e es ih => exact ih (t.insert e.1 e.2)

theorem ofList_eq_foldl (es : List (String × α)) :
    ofList es = es.foldl (fun t e => t.insert e.1 e.2) ∅ :=
  Table.ext (entries_foldl_insert es ∅).symm

theorem keys_ofList (es : List (String × α)) : (ofList es).keys = (keysOf es).eraseDups := by
  rw [ofList_eq_foldl, keys_foldl_insert]
  rfl

/-- Of the entries that are written under one name the last is read. -/
theorem get?_foldl_insert_last (es : List (String × α)) (t : Table α) (key : String) :
    (es.foldl (fun t e => t.insert e.1 e.2) t).get? key =
      (lookupKey key es.reverse).or (t.get? key) := by
  induction es generalizing t with
  | nil => rfl
  | cons e es ih =>
    rw [List.foldl_cons, ih, get?_insert, List.reverse_cons, lookupKey_append, Option.or_assoc]
    congr 1
    by_cases h : e.1 = key
    · simp [lookupKey, h]
    · have h' : ¬ key = e.1 := fun he => h he.symm
      simp [lookupKey, h, h']

theorem get?_ofList (es : List (String × α)) (key : String) :
    (ofList es).get? key = lookupKey key es.reverse := by
  rw [ofList_eq_foldl, get?_foldl_insert_last]
  exact Option.or_none

/-! ### Any number of tables -/

variable (select : β → Table α)

/-- Of tables added to one another the first that has a name is read. -/
theorem get?_foldl_addMissing (bs : List β) (t : Table α) (key : String) :
    (bs.foldl (fun t b => t.addMissing (select b)) t).get? key =
      (t.get? key).or (bs.findSome? fun b => (select b).get? key) := by
  induction bs generalizing t with
  | nil => simp
  | cons b bs ih =>
    rw [List.foldl_cons, ih, get?_addMissing, Option.or_assoc, List.findSome?_cons]
    cases (select b).get? key <;> rfl

theorem keys_foldl_addMissing (bs : List β) (t : Table α) :
    (bs.foldl (fun t b => t.addMissing (select b)) t).keys =
      (t.keys ++ bs.flatMap fun b => (select b).keys).eraseDups := by
  induction bs generalizing t with
  | nil => simp [eraseDups_of_nodup t.nodup_keys]
  | cons b bs ih =>
    rw [List.foldl_cons, ih, keys_addMissing, eraseDups_eraseDups_append, List.flatMap_cons,
      List.append_assoc]

/-- Of tables written over one another the last that has a name is read. -/
theorem get?_foldl_overwrite (bs : List β) (t : Table α) (key : String) :
    (bs.foldl (fun t b => t.overwrite (select b)) t).get? key =
      (bs.reverse.findSome? fun b => (select b).get? key).or (t.get? key) := by
  induction bs generalizing t with
  | nil => simp
  | cons b bs ih =>
    rw [List.foldl_cons, ih, get?_overwrite, List.reverse_cons, List.findSome?_append,
      Option.or_assoc]
    congr 1
    simp only [List.findSome?_cons, List.findSome?_nil]
    cases (select b).get? key <;> rfl

theorem keys_foldl_overwrite (bs : List β) (t : Table α) :
    (bs.foldl (fun t b => t.overwrite (select b)) t).keys =
      (t.keys ++ bs.flatMap fun b => (select b).keys).eraseDups := by
  induction bs generalizing t with
  | nil => simp [eraseDups_of_nodup t.nodup_keys]
  | cons b bs ih =>
    rw [List.foldl_cons, ih, keys_overwrite, eraseDups_eraseDups_append, List.flatMap_cons,
      List.append_assoc]

/-! ### Changes of every value -/

theorem mapWithKey_mapWithKey {γ : Type} (f : String → α → β) (g : String → β → γ) (t : Table α) :
    (t.mapWithKey f).mapWithKey g = t.mapWithKey fun k a => g k (f k a) := by
  apply Table.ext
  show (t.entries.map _).map _ = t.entries.map _
  rw [List.map_map]
  rfl

theorem map_comm {f g : α → α} (h : ∀ a, f (g a) = g (f a)) (t : Table α) :
    (t.map g).map f = (t.map f).map g := by
  unfold map
  rw [mapWithKey_mapWithKey, mapWithKey_mapWithKey]
  congr 1
  funext _ a
  exact h a

/-- What a change leaves alone is read as before. -/
theorem map_mapWithKey {f : String → α → α} {g : α → β} (h : ∀ key a, g (f key a) = g a)
    (t : Table α) : (t.mapWithKey f).map g = t.map g := by
  unfold map
  rw [mapWithKey_mapWithKey]
  congr 1
  funext key a
  exact h key a

theorem get?_mapWithKey (f : String → α → β) (t : Table α) (key : String) :
    (t.mapWithKey f).get? key = (t.get? key).map (f key) :=
  lookupKey_mapWithKey f key t.entries

theorem get?_map (f : α → β) (t : Table α) (key : String) :
    (t.map f).get? key = (t.get? key).map f :=
  get?_mapWithKey (fun _ => f) t key

/-! ### What holds of every value -/

theorem mem_values_mapWithKey {f : String → α → β} {t : Table α} {b : β}
    (h : b ∈ (t.mapWithKey f).values) : ∃ e ∈ t.entries, b = f e.1 e.2 := by
  obtain ⟨g, hg, rfl⟩ := List.mem_map.1 h
  obtain ⟨e, he, rfl⟩ := List.mem_map.1 hg
  exact ⟨e, he, rfl⟩

theorem forall_values_map {f : α → β} {P : β → Prop} {t : Table α} :
    (∀ b ∈ (t.map f).values, P b) ↔ ∀ a ∈ t.values, P (f a) := by
  rw [values_map]
  exact List.forall_mem_map

variable {P : α → Prop} {t u : Table α}

theorem forall_values_addMissing (ht : ∀ a ∈ t.values, P a) (hu : ∀ a ∈ u.values, P a) :
    ∀ a ∈ (t.addMissing u).values, P a := by
  intro a ha
  obtain ⟨key, hkey⟩ := (mem_values_iff _ a).1 ha
  rw [get?_addMissing, Option.or_eq_some_iff] at hkey
  rcases hkey with hkey | ⟨_, hkey⟩
  · exact ht a (mem_values_of_get? hkey)
  · exact hu a (mem_values_of_get? hkey)

theorem forall_values_insert {key : String} {value : α} (ht : ∀ a ∈ t.values, P a)
    (hvalue : P value) : ∀ a ∈ (t.insert key value).values, P a := by
  intro a ha
  obtain ⟨key', hkey⟩ := (mem_values_iff _ a).1 ha
  rw [get?_insert] at hkey
  by_cases he : key' = key
  · rw [if_pos he] at hkey
    cases hkey
    exact hvalue
  · rw [if_neg he] at hkey
    exact ht a (mem_values_of_get? hkey)

theorem forall_values_modify {key : String} {f : α → α} (ht : ∀ a ∈ t.values, P a)
    (hf : ∀ a, P a → P (f a)) : ∀ a ∈ (t.modify key f).values, P a := by
  intro b hb
  obtain ⟨e, he, rfl⟩ := mem_values_mapWithKey hb
  have ha := ht e.2 (List.mem_map_of_mem he)
  by_cases hkey : e.1 = key
  · rw [if_pos hkey]
    exact hf e.2 ha
  · rw [if_neg hkey]
    exact ha

end Table

end SlotFrame
