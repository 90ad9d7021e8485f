import Mathlib.Data.List.Basic
import SlotFrame.Proofs.Namespace.Tables
import SlotFrame.Proofs.Registry.Flattening
import SlotFrame.Registry.Prefixes

/-! # What the table of prefixes holds

Three rules put the table of prefixes together, and by each of them what comes first stands: the
earliest document that declares a prefix, the first shared map that gives it a namespace, and a
declaration before any map. A prefix that cannot be one spoils the table, and the first of them is
reported. Flattening keeps the first declaration of every prefix at the place where it stood, so it
changes neither the table nor the fault.

Main definitions: `Registry.malformedPrefix?`, `Registry.reference?`, `Registry.Tabulates`.

Main statements: `Registry.namespaces_eq_error_iff`, `Registry.exists_namespaces` and
`Registry.namespaces_flatten`. -/

namespace SlotFrame

variable {α β : Type}

/-! ### Lists of entries -/

/-- What is found first is found before its repetitions. -/
theorem find?_eraseDups (p : String → Bool) (xs : List String) :
    xs.eraseDups.find? p = xs.find? p := by
  match xs with
  | [] => rfl
  | x :: xs =>
    rw [List.eraseDups_cons, List.find?_cons, List.find?_cons]
    cases hx : p x with
    | true => rfl
    | false =>
      dsimp only
      rw [find?_eraseDups, List.find?_filter]
      congr 1
      funext y
      -- What is removed is `x`, which is not looked for.
      by_cases hy : y = x
      · rw [hy, hx]
        simp
      · simp [hy]
  termination_by xs.length
  decreasing_by exact Nat.lt_succ_of_le (List.length_filter_le _ _)

/-! ### Writing into a table -/

namespace Namespaces

/-- Setting prefixes one after the other fails at the first that cannot be one. -/
theorem foldlM_set (es : List (String × String)) (t : Namespaces) :
    es.foldlM (fun t e => t.set e.1 e.2) t =
      ((keysOf es).find? fun n => ! isNcName n).elim
        (.ok ⟨es.foldl (fun t e => t.insertNew e.1 e.2) t.entries⟩)
        fun n => fault ("Invalid NCName: " ++ n) := by
  induction es generalizing t with
  | nil => rfl
  | cons e es ih =>
    rw [List.foldlM_cons, keysOf_cons, List.find?_cons, set]
    cases isNcName e.1 with
    | false => rfl
    | true => exact ih _

theorem get?_addEntry (t : Namespaces) (name key : String) (value : Value) :
    (t.addEntry false name value).entries.get? key =
      (t.entries.get? key).or (if isNcName key ∧ key = name then contextUri? value else none) := by
  unfold addEntry
  cases contextUri? value with
  | none => simp
  | some uri =>
    dsimp only
    by_cases hempty : name.isEmpty = true
    · -- The empty name can be no prefix.
      have hname : name = "" := by simpa using hempty
      have hno : ¬ (isNcName key = true ∧ key = name) := by
        rintro ⟨hkey, rfl⟩
        rw [hname] at hkey
        cases hkey
      rw [if_pos hempty, if_neg hno, Option.or_none]
      rfl
    · rw [if_neg hempty]
      by_cases hname : isNcName name = true
      · rw [if_pos hname, Table.get?_insertNew]
        congr 1
        by_cases hkey : key = name
        · simp [hkey, hname]
        · simp [hkey]
      · have hno : ¬ (isNcName key = true ∧ key = name) := by
          rintro ⟨hkey, rfl⟩
          exact hname hkey
        rw [if_neg hname, if_neg hno, Option.or_none]

theorem get?_foldl_addEntry {es : List (String × Value)} (hn : (keysOf es).Nodup) (t : Namespaces)
    (key : String) :
    (es.foldl (fun t e => t.addEntry false e.1 e.2) t).entries.get? key =
      (t.entries.get? key).or
        (if isNcName key then (lookupKey key es).bind contextUri? else none) := by
  induction es generalizing t with
  | nil => simp [lookupKey]
  | cons e es ih =>
    obtain ⟨name, value⟩ := e
    rw [keysOf_cons, List.nodup_cons] at hn
    rw [List.foldl_cons, ih hn.2, get?_addEntry, Option.or_assoc]
    congr 1
    by_cases hkey : key = name
    · have hrest : lookupKey key es = none := (lookupKey_eq_none_iff key es).2 (hkey ▸ hn.1)
      rw [hrest]
      simp [lookupKey, hkey]
    · have hname : ¬ name = key := fun h => hkey h.symm
      simp [lookupKey, hkey, hname]

/-- A prefix map adds the prefixes that it gives a namespace and that are not mapped yet. -/
theorem get?_addContext (t : Namespaces) (context : PrefixMap) (key : String) :
    (t.addContext context false).entries.get? key =
      (t.entries.get? key).or
        (if isNcName key then (context.get? key).bind contextUri? else none) :=
  get?_foldl_addEntry context.nodup t key

end Namespaces

namespace Registry

variable (r : Registry)

/-! ### What documents and maps say about a prefix -/

/-- The first declared prefix, in the order of the registry, that cannot be one. -/
def malformedPrefix? : Option String :=
  ((r.documents true).flatMap fun d => d.prefixes.keys).find? fun n => ! isNcName n

/-- The reference of a prefix in the earliest document that declares it. -/
def reference? (name : String) : Option String :=
  ((r.documents true).findSome? fun d => d.prefixes.get? name).map PrefixDef.reference

/-- The namespace that the first of some maps gives a prefix; maps that are not kept give none. -/
def sharedUri? (cache : PrefixCache) (maps : List String) (name : String) : Option String :=
  (maps.filterMap cache.get?).findSome? fun context => (context.get? name).bind contextUri?

/-- The table of a registry: a declared prefix stands for the reference of its earliest declaration,
any other for what the first of the primary document's maps gives it, and the default prefix of the
primary document, if it is declared, for the default namespace. -/
structure Tabulates (cache : PrefixCache) (t : Namespaces) : Prop where
  prefixes : ∀ name, isNcName name = true → t.entries.get? name =
    (r.reference? name).or (sharedUri? cache r.primary.defaultCuriMaps name)
  default : t.default? = r.primary.defaultPrefix.bind r.reference?
  others : ∀ name, isNcName name = false → name ≠ Namespaces.defaultName →
    t.entries.get? name = none

/-! ### Declared prefixes -/

theorem keysOf_declaredPrefixes :
    keysOf r.declaredPrefixes = (r.documents true).flatMap fun d => d.prefixes.keys := by
  unfold declaredPrefixes keysOf
  rw [List.map_flatMap]
  simp only [List.map_map]
  rfl

theorem lookupKey_declaredPrefixes (name : String) :
    lookupKey name r.declaredPrefixes = r.reference? name := by
  unfold declaredPrefixes reference?
  rw [lookupKey_flatMap, List.map_findSome?]
  congr 1
  funext d
  exact lookupKey_map PrefixDef.reference name d.prefixes.entries

/-- The declared prefixes with the references of their earliest declarations. -/
def declaredTable : Namespaces :=
  ⟨r.declaredPrefixes.foldl (fun t e => t.insertNew e.1 e.2) ∅⟩

theorem keys_declaredTable : r.declaredTable.entries.keys =
    ((r.documents true).flatMap fun d => d.prefixes.keys).eraseDups := by
  unfold declaredTable
  rw [Table.keys_foldl_insertNew, keysOf_declaredPrefixes]
  rfl

theorem get?_declaredTable (name : String) :
    r.declaredTable.entries.get? name = r.reference? name := by
  unfold declaredTable
  rw [Table.get?_foldl_insertNew, lookupKey_declaredPrefixes]
  rfl

theorem declaredNamespaces_eq : r.declaredNamespaces =
    r.malformedPrefix?.elim (.ok r.declaredTable)
      fun n => Namespaces.fault ("Invalid NCName: " ++ n) := by
  unfold declaredNamespaces malformedPrefix?
  rw [Namespaces.foldlM_set, keysOf_declaredPrefixes]
  rfl

/-- Where every declared prefix can be one, nothing else is declared. -/
theorem reference?_of_malformedPrefix?_eq_none (h : r.malformedPrefix? = none) {name : String}
    (hname : isNcName name = false) : r.reference? name = none := by
  rw [← get?_declaredTable]
  have hkey : name ∉ r.declaredTable.entries.keys := by
    rw [keys_declaredTable, List.mem_eraseDups]
    intro hmem
    have hall := List.find?_eq_none.1 h name hmem
    simp [hname] at hall
  rwa [Table.mem_keys_iff, Option.not_isSome_iff_eq_none] at hkey

/-! ### The default prefix and the maps -/

/-- A table that has no default namespace may be given any. -/
theorem withDefault_eq {t : Namespaces} (h : t.default? = none) (name : Option String) :
    withDefault t name = .ok ((name.bind t.entries.get?).elim t
      fun uri => ⟨t.entries.insert Namespaces.defaultName uri⟩) := by
  unfold withDefault
  cases name.bind t.entries.get? with
  | none => rfl
  | some uri =>
    show t.setReserved _ _ _ = _
    rw [Namespaces.setReserved, show t.entries.get? Namespaces.defaultName = none from h]
    rfl

theorem get?_withMaps (cache : PrefixCache) (maps : List String) (t : Namespaces) (key : String) :
    (withMaps cache maps t).entries.get? key = (t.entries.get? key).or
      (if isNcName key then sharedUri? cache maps key else none) := by
  unfold withMaps sharedUri?
  induction maps.filterMap cache.get? generalizing t with
  | nil => simp
  | cons context contexts ih =>
    rw [List.foldl_cons, ih, Namespaces.get?_addContext, Option.or_assoc, List.findSome?_cons]
    congr 1
    cases isNcName key with
    | false => rfl
    | true => cases (context.get? key).bind contextUri? <;> rfl

/-- The table before any shared map is added. -/
def ownTable : Namespaces :=
  (r.primary.defaultPrefix.bind r.reference?).elim r.declaredTable
    fun uri => ⟨r.declaredTable.entries.insert Namespaces.defaultName uri⟩

/-- The table is spoilt by a prefix that cannot be one, and by nothing else. -/
theorem namespaces_eq (cache : PrefixCache) : r.namespaces cache =
    r.malformedPrefix?.elim (.ok (withMaps cache r.primary.defaultCuriMaps r.ownTable))
      fun n => Namespaces.fault ("Invalid NCName: " ++ n) := by
  unfold namespaces
  rw [declaredNamespaces_eq]
  cases h : r.malformedPrefix? with
  | some n => rfl
  | none =>
    have hno : r.declaredTable.default? = none := by
      rw [Namespaces.default?, get?_declaredTable]
      exact r.reference?_of_malformedPrefix?_eq_none h (Namespaces.isNcName_of_isReserved rfl)
    have hget : r.declaredTable.entries.get? = r.reference? := funext r.get?_declaredTable
    show (withDefault r.declaredTable r.primary.defaultPrefix >>= fun t => .ok (withMaps _ _ t)) = _
    rw [withDefault_eq hno, hget]
    rfl

theorem get?_ownTable {name : String} (h : name ≠ Namespaces.defaultName) :
    r.ownTable.entries.get? name = r.reference? name := by
  unfold ownTable
  cases r.primary.defaultPrefix.bind r.reference? with
  | none => exact r.get?_declaredTable name
  | some uri =>
    show (r.declaredTable.entries.insert _ _).get? name = _
    rw [Table.get?_insert, if_neg h, get?_declaredTable]

theorem default?_ownTable (h : r.malformedPrefix? = none) :
    r.ownTable.default? = r.primary.defaultPrefix.bind r.reference? := by
  unfold ownTable
  cases r.primary.defaultPrefix.bind r.reference? with
  | none =>
    show r.declaredTable.entries.get? _ = _
    rw [get?_declaredTable]
    exact r.reference?_of_malformedPrefix?_eq_none h (Namespaces.isNcName_of_isReserved rfl)
  | some uri =>
    show (r.declaredTable.entries.insert _ _).get? _ = _
    rw [Table.get?_insert, if_pos rfl]

/-! ### Outcomes -/

variable (cache : PrefixCache)

/-- There is no table exactly if a declared prefix cannot be one, and the first of them is named. -/
theorem namespaces_eq_error_iff {f : Fault} : r.namespaces cache = .error f ↔
    ∃ name, r.malformedPrefix? = some name ∧ f = .namespaces ("Invalid NCName: " ++ name) := by
  rw [namespaces_eq]
  cases r.malformedPrefix? with
  | none =>
    constructor
    · intro h
      cases h
    · rintro ⟨_, ⟨⟩, _⟩
  | some n =>
    constructor
    · intro h
      cases h
      exact ⟨n, rfl, rfl⟩
    · rintro ⟨_, ⟨⟩, rfl⟩
      rfl

/-- Otherwise the table holds the first declarations, and of the maps what they add to these. -/
theorem exists_namespaces (h : r.malformedPrefix? = none) :
    ∃ t, r.namespaces cache = .ok t ∧ r.Tabulates cache t := by
  refine ⟨withMaps cache r.primary.defaultCuriMaps r.ownTable, ?_, ?_, ?_, ?_⟩
  · rw [namespaces_eq, h]
    rfl
  · intro name hname
    have hne : name ≠ Namespaces.defaultName := by
      rintro rfl
      rw [Namespaces.isNcName_of_isReserved rfl] at hname
      cases hname
    rw [get?_withMaps, r.get?_ownTable hne, if_pos hname]
  · show (withMaps _ _ _).entries.get? _ = _
    rw [get?_withMaps, Namespaces.isNcName_of_isReserved rfl, if_neg Bool.false_ne_true,
      Option.or_none]
    exact r.default?_ownTable h
  · intro name hname hne
    rw [get?_withMaps, r.get?_ownTable hne, hname,
      r.reference?_of_malformedPrefix?_eq_none h hname]
    rfl

/-- The maps that are not asked for do not matter. -/
theorem namespaces_congr {cache cache' : PrefixCache}
    (h : ∀ n ∈ r.primary.defaultCuriMaps, cache.get? n = cache'.get? n) :
    r.namespaces cache = r.namespaces cache' := by
  have hmaps : r.primary.defaultCuriMaps.filterMap cache.get? =
      r.primary.defaultCuriMaps.filterMap cache'.get? := List.filterMap_congr h
  rw [namespaces_eq, namespaces_eq, withMaps, withMaps, hmaps]

/-! ### Flattening -/

theorem malformedPrefix?_flatten : r.flatten.malformedPrefix? = r.malformedPrefix? := by
  unfold malformedPrefix?
  rw [← find?_eraseDups _ ((r.documents true).flatMap fun d => d.prefixes.keys),
    ← r.flattened_folded.prefixes.keys]
  show ([r.flattened].flatMap fun d => d.prefixes.keys).find? _ = _
  rw [List.flatMap_singleton]

theorem reference?_flatten (name : String) : r.flatten.reference? name = r.reference? name := by
  unfold reference?
  rw [← r.flattened_folded.prefixes.get? name]
  show ([r.flattened].findSome? fun d => d.prefixes.get? name).map PrefixDef.reference = _
  rw [List.findSome?_singleton]

/-- Of each prefix the earliest declaration is kept, at the place where it was first declared. -/
theorem declaredTable_flatten : r.flatten.declaredTable = r.declaredTable := by
  apply Namespaces.ext
  apply Table.ext_get?
  · rw [keys_declaredTable, keys_declaredTable, ← r.flattened_folded.prefixes.keys]
    show ([r.flattened].flatMap fun d => d.prefixes.keys).eraseDups = _
    rw [List.flatMap_singleton, eraseDups_of_nodup (Table.nodup_keys _)]
  · intro name
    rw [get?_declaredTable, get?_declaredTable, reference?_flatten]

/-- Flattening changes neither the table nor the fault. -/
theorem namespaces_flatten : r.flatten.namespaces cache = r.namespaces cache := by
  have hothers : r.flattened.declaring r.primary = r.primary := r.flattened_folded.others
  have hdefault : r.flatten.primary.defaultPrefix = r.primary.defaultPrefix := by
    conv => rhs; rw [← hothers]
    rfl
  have hmaps : r.flatten.primary.defaultCuriMaps = r.primary.defaultCuriMaps := by
    conv => rhs; rw [← hothers]
    rfl
  have hreference : r.flatten.reference? = r.reference? := funext r.reference?_flatten
  have hown : r.flatten.ownTable = r.ownTable := by
    unfold ownTable
    rw [hdefault, hreference, declaredTable_flatten]
  rw [namespaces_eq, namespaces_eq, malformedPrefix?_flatten, hmaps, hown]

end Registry

end SlotFrame
