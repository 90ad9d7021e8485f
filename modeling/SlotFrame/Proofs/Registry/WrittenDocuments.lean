import SlotFrame.Proofs.Registry.InducedClasses

/-! # Documents that slots are written into

A class that is declared in several documents is written in the newest of them, where it is looked
up. Attributes change neither which classes a document declares nor, therefore, where any class is
looked up, so all that is written in a row is written where the first registry says.

Main definition: `Schema.withListed`.

Main statements: `Registry.entries_writeAll` (what becomes of every document) and
`Registry.classInducedSlots_eq_written` (what is written into a class). -/

namespace SlotFrame

/-- A document with the slots that are listed for its classes added to the attributes of those that
are looked up under its key; its other classes and all else stay the same. -/
def Schema.withListed (home? : String → Option String) (listed : String → List SlotDef)
    (key : String) (d : Schema) : Schema :=
  { d with classes := d.classes.mapWithKey fun c k =>
      if home? c = some key then k.withAttributes (listed c) else k }

namespace Schema

variable {home? : String → Option String} {key : String}

theorem keys_withListed (listed : String → List SlotDef) (d : Schema) :
    (d.withListed home? listed key).classes.keys = d.classes.keys :=
  Table.keys_mapWithKey _ d.classes

/-- A class that is looked up elsewhere stays as it was declared. -/
theorem get?_withListed_of_ne {c : String} (h : home? c ≠ some key)
    (listed : String → List SlotDef) (d : Schema) :
    (d.withListed home? listed key).classes.get? c = d.classes.get? c := by
  have hget := Table.get?_mapWithKey (fun c (k : ClassDef) =>
    if home? c = some key then k.withAttributes (listed c) else k) d.classes c
  simp only [if_neg h, Option.map_id'] at hget
  exact hget

/-- What is listed later is added behind what was listed first. -/
theorem withListed_withListed (first second : String → List SlotDef) (d : Schema) :
    (d.withListed home? first key).withListed home? second key =
      d.withListed home? (fun c => first c ++ second c) key := by
  unfold withListed
  dsimp only
  rw [Table.mapWithKey_mapWithKey]
  congr 2
  funext c k
  by_cases hc : home? c = some key
  · simp only [if_pos hc]
    exact (ClassDef.withAttributes_append _ _ k).symm
  · simp only [if_neg hc]

/-- A document is left alone if nothing is listed for the classes that are looked up in it. -/
theorem withListed_eq_self {listed : String → List SlotDef}
    (h : ∀ c, home? c = some key → listed c = []) (d : Schema) :
    d.withListed home? listed key = d := by
  have hid : (fun c (k : ClassDef) =>
      if home? c = some key then k.withAttributes (listed c) else k) = fun _ k => k := by
    funext c k
    by_cases hc : home? c = some key
    · rw [if_pos hc, h c hc]
      rfl
    · rw [if_neg hc]
  have hclasses : d.classes.mapWithKey (fun _ k => k) = d.classes :=
    Table.ext (List.map_id d.classes.entries)
  unfold withListed
  rw [hid, hclasses]

/-- Where something is listed for one class, only the document of that class has it added. -/
theorem withListed_written (className : String) (slots : List SlotDef) (d : Schema) :
    d.withListed home? (Registry.written [(className, slots)]) key =
      if home? className = some key then d.withAttributes className slots else d := by
  have hone : ∀ c, Registry.written [(className, slots)] c = if c = className then slots else [] := by
    intro c
    simp [Registry.written, eq_comm]
  by_cases hhome : home? className = some key
  · rw [if_pos hhome]
    unfold withListed withAttributes Table.modify
    congr 2
    funext c k
    by_cases hc : c = className
    · rw [hone, hc, if_pos hhome, if_pos rfl, if_pos rfl]
    · have hnone : k.withAttributes (Registry.written [(className, slots)] c) = k := by
        rw [hone, if_neg hc]
        rfl
      rw [hnone, if_neg hc, ite_self]
  · rw [if_neg hhome]
    apply withListed_eq_self
    intro c hc
    have hne : c ≠ className := by
      rintro rfl
      exact hhome hc
    rw [hone, if_neg hne]

end Schema

namespace Registry

variable {r : Registry}

/-! ### Every document -/

/-- Where a class is looked up depends only on which classes the documents declare. -/
theorem homeOf?_congr {m : Registry} {f : String × Schema → Schema}
    (h : m.entries = r.entries.map fun e => (e.1, f e))
    (hkeys : ∀ e, (f e).classes.keys = e.2.classes.keys) : m.homeOf? = r.homeOf? := by
  have hcontains : ∀ e c, (f e).classes.contains c = e.2.classes.contains c := by
    intro e c
    rw [Bool.eq_iff_iff, Table.contains_iff, Table.contains_iff, hkeys]
  funext c
  unfold homeOf?
  rw [h, ← List.map_reverse, List.find?_map]
  simp only [Function.comp_def, hcontains]
  cases r.entries.reverse.find? fun e => e.2.classes.contains c <;> rfl

theorem entries_writeAttributes (className : String) (slots : List SlotDef) :
    (r.writeAttributes className slots).entries = r.entries.map fun e =>
      (e.1, e.2.withListed r.homeOf? (written [(className, slots)]) e.1) := by
  simp only [Schema.withListed_written]
  unfold writeAttributes
  cases hhome : r.homeOf? className with
  | none => simp
  | some key =>
    dsimp only
    rw [entries_modify]
    simp only [Option.some.injEq, eq_comm]
    rfl

theorem written_cons (e : String × List SlotDef) (slots : List (String × List SlotDef))
    (c : String) : written (e :: slots) c = written [e] c ++ written slots c := by
  unfold written
  rw [← List.flatMap_append]
  rfl

/-- **What becomes of the documents of a registry** that slots are written into: each keeps its key
and its place, and has the slots added that are listed for its classes, as far as these were looked
up in it before anything was written. -/
theorem entries_writeAll (slots : List (String × List SlotDef)) (r : Registry) :
    (r.writeAll slots).entries = r.entries.map fun e =>
      (e.1, e.2.withListed r.homeOf? (written slots) e.1) := by
  induction slots generalizing r with
  | nil =>
    have hsame : ∀ (key : String) (d : Schema), d.withListed r.homeOf? (written []) key = d :=
      fun _ => Schema.withListed_eq_self fun _ _ => rfl
    simp [writeAll, hsame]
  | cons e slots ih =>
    have hstep : (r.writeAll (e :: slots)) = (r.writeAttributes e.1 e.2).writeAll slots := rfl
    have hone := r.entries_writeAttributes e.1 e.2
    have hhome : (r.writeAttributes e.1 e.2).homeOf? = r.homeOf? :=
      homeOf?_congr hone fun _ => Schema.keys_withListed _ _
    rw [hstep, ih, hhome, hone, List.map_map]
    simp only [Function.comp_def, Schema.withListed_withListed, ← written_cons]

/-! ### What is written -/

/-- Where every class is listed once, what is written into a class is what is listed for it. -/
theorem written_of_mem {slots : List (String × List SlotDef)} (hn : (keysOf slots).Nodup)
    {c : String} {ds : List SlotDef} (h : (c, ds) ∈ slots) : written slots c = ds := by
  induction slots with
  | nil => cases h
  | cons e slots ih =>
    rw [keysOf_cons, List.nodup_cons] at hn
    obtain ⟨hfirst, hrest⟩ := hn
    rw [written_cons]
    rcases List.mem_cons.1 h with rfl | hmem
    · have hnone : written slots c = [] := by
        unfold written
        rw [List.flatMap_eq_nil_iff]
        intro x hx
        have hkey : x.1 ∈ keysOf slots := List.mem_map_of_mem hx
        have hne : x.1 ≠ c := fun hsame => hfirst (hsame ▸ hkey)
        exact if_neg hne
      rw [hnone]
      simp [written]
    · have hkey : c ∈ keysOf slots := List.mem_map.2 ⟨(c, ds), hmem, rfl⟩
      have hne : e.1 ≠ c := fun hsame => hfirst (hsame ▸ hkey)
      rw [ih hrest hmem]
      simp [written, hne]

theorem keysOf_inducedSlots {slots : List (String × List SlotDef)}
    (h : r.inducedSlots = .ok slots) : keysOf slots = (r.classes true).keys := by
  have hall := Result.forall₂_of_mapM h
  have hnames : List.Forall₂ (fun c e => e = c) (r.classes true).keys (keysOf slots) := by
    unfold keysOf
    rw [List.forall₂_map_right_iff]
    refine hall.imp fun c e he => ?_
    obtain ⟨ds, -, hpair⟩ := Result.bind_eq_ok_iff.1 he
    cases hpair
    rfl
  rw [← List.forall₂_eq_eq_eq]
  exact hnames.flip

/-- Into every class its induced slots are written. -/
theorem classInducedSlots_eq_written {slots : List (String × List SlotDef)}
    (h : r.inducedSlots = .ok slots) {c : String} (hc : c ∈ (r.classes true).keys) :
    r.classInducedSlots c = .ok (written slots c) := by
  obtain ⟨k, hk⟩ := mem_classes_iff.1 hc
  obtain ⟨ds, hds, hmem⟩ := (mem_inducedSlots h).1 c k hk
  have hnodup : (keysOf slots).Nodup := by
    rw [keysOf_inducedSlots h]
    exact (r.classes true).nodup_keys
  rw [written_of_mem hnodup hmem]
  exact hds

/-- The induced slots of all classes can be told exactly if those of each class can. -/
theorem exists_inducedSlots_iff : (∃ slots, r.inducedSlots = .ok slots) ↔
    ∀ c ∈ (r.classes true).keys, ∃ ds, r.classInducedSlots c = .ok ds := by
  constructor
  · rintro ⟨slots, hslots⟩ c hc
    exact ⟨_, classInducedSlots_eq_written hslots hc⟩
  · intro hall
    refine Result.exists_mapM fun c hc => ?_
    obtain ⟨ds, hds⟩ := hall c hc
    exact ⟨(c, ds), by rw [hds]; rfl⟩

end Registry

end SlotFrame
