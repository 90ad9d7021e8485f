import SlotFrame.Proofs.Registry.Documents
import SlotFrame.Proofs.Registry.Flattening
import SlotFrame.Proofs.Registry.Precedence
import SlotFrame.Registry.Materialize

/-! # What writing attributes changes

Slots are added to the attributes of a class where it is looked up, so the class that is found has
them and every other class stays the same. No other declaration changes, nor does the order of any
names. A name that is sought among the attributes of all classes is found as before or among the
slots that were written.

Main statements: `Registry.class?_writeAll`, `Registry.slot?_writeAll`,
`Registry.ownSlot?_writeAll` and `Registry.writeAll_eq_self` (writing what stands there changes
nothing). -/

namespace SlotFrame

variable {α β : Type}

/-! ### Tables with one value changed -/

namespace Table

theorem get?_modify (t : Table α) (key n : String) (f : α → α) :
    (t.modify key f).get? n = if n = key then (t.get? n).map f else t.get? n := by
  unfold modify
  rw [get?_mapWithKey]
  by_cases hn : n = key
  · simp [hn]
  · simp [hn]

theorem keys_modify (t : Table α) (key : String) (f : α → α) : (t.modify key f).keys = t.keys :=
  keys_mapWithKey _ t

theorem modify_eq_self {t : Table α} {key : String} {f : α → α}
    (h : ∀ value, t.get? key = some value → f value = value) : t.modify key f = t := by
  apply ext_get?
  · exact t.keys_modify key f
  · intro n
    rw [get?_modify]
    by_cases hn : n = key
    · rw [if_pos hn, hn]
      cases hv : t.get? key with
      | none => rfl
      | some value => rw [Option.map_some, h value hv]
    · rw [if_neg hn]

end Table

theorem map_of_not_mem_keysOf {key : String} {es : List (String × α)} (h : key ∉ keysOf es)
    (f : α → α) : es.map (fun e => (e.1, if e.1 = key then f e.2 else e.2)) = es := by
  conv => rhs; rw [← List.map_id es]
  apply List.map_congr_left
  intro e he
  have hne : e.1 ≠ key := fun hkey => h (hkey ▸ List.mem_map_of_mem he)
  rw [if_neg hne]
  rfl

theorem map_at_key {key : String} {value : α} {before after : List (String × α)}
    (hn : (keysOf (before ++ (key, value) :: after)).Nodup) (f : α → α) :
    (before ++ (key, value) :: after).map (fun e => (e.1, if e.1 = key then f e.2 else e.2)) =
      before ++ (key, f value) :: after := by
  rw [keysOf_append, keysOf_cons, List.nodup_append, List.nodup_cons] at hn
  obtain ⟨_, ⟨hafter, _⟩, hapart⟩ := hn
  have hbefore : key ∉ keysOf before := fun h => hapart key h key List.mem_cons_self rfl
  rw [List.map_append, List.map_cons, map_of_not_mem_keysOf hbefore,
    map_of_not_mem_keysOf hafter, if_pos rfl]

/-! ### Searches in which some answers change -/

/-- A search whose answers stay the same or become good ones finds what it found or a good one. -/
theorem findSome?_changed {f g : β → Option α} {P : α → Prop} {xs : List β}
    (h : ∀ b ∈ xs, g b = f b ∨ ∃ a, g b = some a ∧ P a) :
    xs.findSome? g = xs.findSome? f ∨ ∃ a, xs.findSome? g = some a ∧ P a := by
  induction xs with
  | nil => exact .inl rfl
  | cons b xs ih =>
    rw [List.findSome?_cons, List.findSome?_cons]
    rcases h b List.mem_cons_self with hb | ⟨a, ha, hP⟩
    · rw [hb]
      cases f b with
      | some a => exact .inl rfl
      | none => exact ih fun c hc => h c (List.mem_cons_of_mem _ hc)
    · rw [ha]
      exact .inr ⟨a, rfl, hP⟩

namespace ClassDef

theorem withAttributes_append (xs ys : List SlotDef) (c : ClassDef) :
    withAttributes (xs ++ ys) c = withAttributes ys (withAttributes xs c) := by
  unfold withAttributes
  rw [List.foldl_append]

theorem withAttributes_eq_self {slots : List SlotDef} {c : ClassDef}
    (h : ∀ s ∈ slots, c.attributes.get? s.name = some s) : withAttributes slots c = c := by
  induction slots with
  | nil => rfl
  | cons s slots ih =>
    have hone : withAttributes [s] c = c := by
      show ({ c with attributes := c.attributes.insert s.name s } : ClassDef) = c
      rw [Table.insert_eq_self (h s List.mem_cons_self)]
    rw [show s :: slots = [s] ++ slots from rfl, withAttributes_append, hone]
    exact ih fun x hx => h x (List.mem_cons_of_mem _ hx)

/-- An attribute of a class that slots are written into is one of them or was there before. -/
theorem attributes_withAttributes (slots : List SlotDef) (c : ClassDef) (name : String) :
    (withAttributes slots c).attributes.get? name = c.attributes.get? name ∨
      ∃ s, (withAttributes slots c).attributes.get? name = some s ∧ s ∈ slots ∧ s.name = name := by
  induction slots generalizing c with
  | nil => exact .inl rfl
  | cons s slots ih =>
    rw [show s :: slots = [s] ++ slots from rfl, withAttributes_append]
    rcases ih (withAttributes [s] c) with h | ⟨x, hx, hmem, hname⟩
    · have hone : (withAttributes [s] c).attributes.get? name =
          if name = s.name then some s else c.attributes.get? name := Table.get?_insert _ _ _ _
      rw [h, hone]
      by_cases hs : name = s.name
      · exact .inr ⟨s, if_pos hs, List.mem_cons_self, hs.symm⟩
      · exact .inl (if_neg hs)
    · exact .inr ⟨x, hx, List.mem_cons_of_mem _ hmem, hname⟩

/-- Under the name of a written slot stands a written slot. -/
theorem attributes_withAttributes_of_mem {slots : List SlotDef} {s : SlotDef} (h : s ∈ slots)
    (c : ClassDef) : ∃ x, (withAttributes slots c).attributes.get? s.name = some x ∧ x ∈ slots ∧
      x.name = s.name := by
  obtain ⟨before, after, rfl⟩ := List.append_of_mem h
  have hsplit : before ++ s :: after = (before ++ [s]) ++ after := by simp
  rw [hsplit, withAttributes_append]
  rcases (withAttributes (before ++ [s]) c).attributes_withAttributes after s.name with
    hsame | ⟨x, hx, hmem, hname⟩
  · have hlast : (withAttributes (before ++ [s]) c).attributes.get? s.name = some s := by
      rw [withAttributes_append]
      show ((withAttributes before c).attributes.insert s.name s).get? s.name = some s
      rw [Table.get?_insert, if_pos rfl]
    exact ⟨s, hsame.trans hlast, by simp, rfl⟩
  · exact ⟨x, hx, List.mem_append_right _ hmem, hname⟩

end ClassDef

/-- A document with slots added to the attributes of a class. -/
def Schema.withAttributes (className : String) (slots : List SlotDef) (d : Schema) : Schema :=
  { d with classes := d.classes.modify className (ClassDef.withAttributes slots) }

namespace Registry

/-- The document under a key is changed, every other one stays the same. -/
theorem entries_modify (r : Registry) (key : String) (f : Schema → Schema) :
    (r.modify key f).entries = r.entries.map fun e => (e.1, if e.1 = key then f e.2 else e.2) := by
  have hn := r.nodup_keys
  unfold modify
  by_cases hkey : key = r.key
  · have hapart : key ∉ keysOf r.imported.entries := hkey ▸ (List.nodup_cons.1 hn).1
    have hsame : r.imported.entries.map (fun e => (e.1, if e.1 = key then f e.2 else e.2)) =
        r.imported.entries := map_of_not_mem_keysOf hapart f
    rw [if_pos hkey]
    show (r.key, f r.primary) :: r.imported.entries = _
    unfold entries
    rw [List.map_cons, hsame, if_pos hkey.symm]
  · rw [if_neg hkey]
    show (r.key, r.primary) :: r.imported.entries.map
      (fun e => (e.1, if e.1 = key then f e.2 else e.2)) = _
    unfold entries
    rw [List.map_cons, if_neg fun h => hkey h.symm]

/-! ### Where a class is looked up -/

/-- A class is looked up in the newest document that declares it. -/
theorem homeOf?_eq_some_iff {r : Registry} {className key : String} :
    r.homeOf? className = some key ↔ ∃ older d newer, r.entries = older ++ (key, d) :: newer ∧
      className ∈ d.classes.keys ∧ ∀ e ∈ newer, className ∉ e.2.classes.keys := by
  unfold homeOf?
  rw [Option.map_eq_some_iff]
  simp only [List.find?_eq_some_iff_append, Table.contains_iff]
  constructor
  · rintro ⟨⟨_, d⟩, ⟨hd, newer, older, hsplit, hnewer⟩, rfl⟩
    refine ⟨older.reverse, d, newer.reverse, ?_, hd, ?_⟩
    · rw [← List.reverse_reverse r.entries, hsplit]
      simp
    · intro e he hmem
      have hno := hnewer e (List.mem_reverse.1 he)
      simp [(Table.contains_iff _ _).2 hmem] at hno
  · rintro ⟨older, d, newer, hsplit, hd, hnewer⟩
    refine ⟨(key, d), ⟨hd, newer.reverse, older.reverse, ?_, ?_⟩, rfl⟩
    · rw [hsplit]
      simp
    · intro e he
      have hno := hnewer e (List.mem_reverse.1 he)
      rw [← Table.contains_iff] at hno
      simpa using hno

theorem homeOf?_eq_none_iff {r : Registry} {className : String} :
    r.homeOf? className = none ↔ ∀ e ∈ r.entries, className ∉ e.2.classes.keys := by
  unfold homeOf?
  simp only [Option.map_eq_none_iff, List.find?_eq_none, List.mem_reverse, Table.contains_iff]

/-! ### One class -/

/-- Slots are written into the newest document that declares the class, if there is one. -/
theorem writeAttributes_cases (r : Registry) (className : String) (slots : List SlotDef) :
    ((∀ e ∈ r.entries, className ∉ e.2.classes.keys) ∧ r.writeAttributes className slots = r) ∨
    ∃ older key d newer, r.entries = older ++ (key, d) :: newer ∧ className ∈ d.classes.keys ∧
      (∀ e ∈ newer, className ∉ e.2.classes.keys) ∧
      (r.writeAttributes className slots).entries =
        older ++ (key, d.withAttributes className slots) :: newer := by
  unfold writeAttributes
  cases hhome : r.homeOf? className with
  | none => exact .inl ⟨homeOf?_eq_none_iff.1 hhome, rfl⟩
  | some key =>
    obtain ⟨older, d, newer, hr, hd, hnewer⟩ := homeOf?_eq_some_iff.1 hhome
    have hkeys : (keysOf (older ++ (key, d) :: newer)).Nodup := hr ▸ r.nodup_keys
    refine .inr ⟨older, key, d, newer, hr, hd, hnewer, ?_⟩
    dsimp only
    rw [entries_modify, hr]
    exact map_at_key hkeys (Schema.withAttributes className slots)

/-- What is read of every document and is not changed by attributes is not changed. -/
theorem map_writeAttributes {field : Schema → β} (className : String) (slots : List SlotDef)
    (h : ∀ d : Schema, field (d.withAttributes className slots) = field d) (r : Registry) :
    ((r.writeAttributes className slots).documents true).map field =
      (r.documents true).map field := by
  rcases r.writeAttributes_cases className slots with ⟨_, hsame⟩ |
    ⟨older, key, d, newer, hr, _, _, hw⟩
  · rw [hsame]
  · show ((r.writeAttributes className slots).entries.map Prod.snd).map field =
      (r.entries.map Prod.snd).map field
    rw [hw, hr]
    simp [h]

theorem find?_writeAttributes {select : Schema → Table α} (className : String)
    (slots : List SlotDef) (h : ∀ d : Schema, select (d.withAttributes className slots) = select d)
    (r : Registry) (name : String) :
    (r.writeAttributes className slots).find? select name = r.find? select name := by
  have hall := map_writeAttributes className slots h r
  have hfind : ∀ s : Registry, s.find? select name =
      (((s.documents true).map select).reverse.findSome? fun t => t.get? name) := by
    intro s
    rw [← List.map_reverse, List.findSome?_map]
    rfl
  rw [hfind, hfind, hall]

theorem findSome?_of_entries (f : Schema → Option α) {r : Registry}
    {older newer : List (String × Schema)} {key : String} {d : Schema}
    (h : r.entries = older ++ (key, d) :: newer) :
    (r.documents true).reverse.findSome? f = (newer.reverse.findSome? fun e => f e.2).or
      ((f d).or (older.reverse.findSome? fun e => f e.2)) := by
  show ((r.entries.map Prod.snd).reverse.findSome? _) = _
  rw [h, ← List.map_reverse, List.findSome?_map, List.reverse_append, List.reverse_cons,
    List.append_assoc, List.findSome?_append, List.findSome?_append]
  congr 2
  rw [List.findSome?_singleton]
  rfl

theorem findSome?_of_undeclared {entries : List (String × Schema)} {className : String}
    (h : ∀ e ∈ entries, className ∉ e.2.classes.keys) :
    (entries.reverse.findSome? fun e => e.2.classes.get? className) = none := by
  rw [List.findSome?_eq_none_iff]
  intro e he
  have hno := h e (List.mem_reverse.1 he)
  rw [Table.mem_keys_iff] at hno
  simpa using hno

/-- The class that is found has the slots, every other class stays the same. -/
theorem class?_writeAttributes (r : Registry) (className : String) (slots : List SlotDef)
    (name : String) : (r.writeAttributes className slots).class? name =
      if name = className then (r.class? name).map (ClassDef.withAttributes slots)
      else r.class? name := by
  rcases r.writeAttributes_cases className slots with ⟨hnone, hsame⟩ |
    ⟨older, key, d, newer, hr, hd, hnewer, hw⟩
  · rw [hsame]
    by_cases hname : name = className
    · have hunknown : r.class? name = none := by
        rw [hname]
        cases hc : r.class? className with
        | none => rfl
        | some c =>
          obtain ⟨e, he, hg⟩ := r.mem_documents_of_find? hc
          obtain ⟨f, hf, rfl⟩ := List.mem_map.1 he
          exact absurd ((Table.mem_keys_iff _ _).2 (by rw [hg]; rfl)) (hnone f hf)
      rw [if_pos hname, hunknown]
      rfl
    · rw [if_neg hname]
  · unfold class? find?
    rw [findSome?_of_entries _ hw, findSome?_of_entries _ hr]
    show (_ : Option ClassDef).or (((d.classes.modify className _).get? name).or _) = _
    rw [Table.get?_modify]
    by_cases hname : name = className
    · rw [if_pos hname, if_pos hname, hname]
      obtain ⟨c, hc⟩ := Option.isSome_iff_exists.1 ((Table.mem_keys_iff _ _).1 hd)
      rw [findSome?_of_undeclared hnewer, hc]
      rfl
    · rw [if_neg hname, if_neg hname]

theorem attributeIn?_withAttributes (className : String) (slots : List SlotDef) (d : Schema)
    (name : String) : attributeIn? name (d.withAttributes className slots) = attributeIn? name d ∨
      ∃ s, attributeIn? name (d.withAttributes className slots) = some s ∧ s ∈ slots ∧
        s.name = name := by
  have hbefore : attributeIn? name d =
      d.classes.entries.findSome? fun e => e.2.attributes.get? name := List.findSome?_map
  have hafter : attributeIn? name (d.withAttributes className slots) =
      d.classes.entries.findSome? fun e =>
        (if e.1 = className then e.2.withAttributes slots else e.2).attributes.get? name := by
    show ((d.classes.entries.map _).map Prod.snd).findSome? _ = _
    rw [List.map_map, List.findSome?_map]
    rfl
  rw [hbefore, hafter]
  apply findSome?_changed
  intro e _
  by_cases he : e.1 = className
  · rw [if_pos he]
    exact e.2.attributes_withAttributes slots name
  · rw [if_neg he]
    exact .inl rfl

/-- A name that is sought among the attributes of all classes is found as before or among the slots
that were written. -/
theorem slot?_writeAttributes (r : Registry) (className : String) (slots : List SlotDef)
    (name : String) : (r.writeAttributes className slots).slot? name = r.slot? name ∨
      ∃ s, (r.writeAttributes className slots).slot? name = some s ∧ s ∈ slots ∧ s.name = name := by
  rcases r.writeAttributes_cases className slots with ⟨_, hsame⟩ |
    ⟨older, key, d, newer, hr, _, _, hw⟩
  · rw [hsame]
    exact .inl rfl
  · have hown : (r.writeAttributes className slots).ownSlot? name = r.ownSlot? name :=
      find?_writeAttributes className slots (fun _ => rfl) r name
    unfold slot?
    rw [hown, findSome?_of_entries _ hw, findSome?_of_entries _ hr]
    cases r.ownSlot? name with
    | some s => exact .inl rfl
    | none =>
      rw [Option.none_or, Option.none_or]
      cases newer.reverse.findSome? fun e => attributeIn? name e.2 with
      | some s => exact .inl rfl
      | none =>
        rw [Option.none_or, Option.none_or]
        rcases attributeIn?_withAttributes className slots d name with h | ⟨s, hs, hslots⟩
        · rw [h]
          exact .inl rfl
        · rw [hs]
          exact .inr ⟨s, rfl, hslots⟩

/-! ### Any number of classes -/

/-- What is written into a class, one list of slots after the other. -/
def written (slots : List (String × List SlotDef)) (className : String) : List SlotDef :=
  slots.flatMap fun e => if e.1 = className then e.2 else []

theorem class?_writeAll (slots : List (String × List SlotDef)) (r : Registry) (name : String) :
    (r.writeAll slots).class? name =
      (r.class? name).map (ClassDef.withAttributes (written slots name)) := by
  induction slots generalizing r with
  | nil => cases h : r.class? name <;> exact h
  | cons e slots ih =>
    have hstep : (r.writeAll (e :: slots)) = (r.writeAttributes e.1 e.2).writeAll slots := rfl
    rw [hstep, ih, class?_writeAttributes]
    by_cases he : name = e.1
    · have hw : written (e :: slots) name = e.2 ++ written slots name := by
        unfold written
        rw [List.flatMap_cons, if_pos he.symm]
      rw [if_pos he, hw]
      cases r.class? name with
      | none => rfl
      | some c => exact congrArg some (ClassDef.withAttributes_append _ _ c).symm
    · have hw : written (e :: slots) name = written slots name := by
        unfold written
        rw [List.flatMap_cons, if_neg fun h => he h.symm, List.nil_append]
      rw [if_neg he, hw]

theorem slot?_writeAll (slots : List (String × List SlotDef)) (r : Registry) (name : String) :
    (r.writeAll slots).slot? name = r.slot? name ∨
      ∃ s, (r.writeAll slots).slot? name = some s ∧ (∃ e ∈ slots, s ∈ e.2) ∧ s.name = name := by
  induction slots generalizing r with
  | nil => exact .inl rfl
  | cons e slots ih =>
    have hstep : (r.writeAll (e :: slots)) = (r.writeAttributes e.1 e.2).writeAll slots := rfl
    rw [hstep]
    rcases ih (r.writeAttributes e.1 e.2) with h | ⟨s, hs, ⟨f, hf, hmem⟩, hname⟩
    · rw [h]
      rcases r.slot?_writeAttributes e.1 e.2 name with h | ⟨s, hs, hmem, hname⟩
      · exact .inl h
      · exact .inr ⟨s, hs, ⟨e, List.mem_cons_self, hmem⟩, hname⟩
    · exact .inr ⟨s, hs, ⟨f, List.mem_cons_of_mem _ hf, hmem⟩, hname⟩

theorem map_writeAll {field : Schema → β}
    (h : ∀ (d : Schema) className slots, field (d.withAttributes className slots) = field d)
    (slots : List (String × List SlotDef)) (r : Registry) :
    ((r.writeAll slots).documents true).map field = (r.documents true).map field := by
  induction slots generalizing r with
  | nil => rfl
  | cons e slots ih =>
    have hstep : (r.writeAll (e :: slots)) = (r.writeAttributes e.1 e.2).writeAll slots := rfl
    rw [hstep, ih, map_writeAttributes e.1 e.2 fun d => h d e.1 e.2]

theorem ownSlot?_writeAll (slots : List (String × List SlotDef)) (r : Registry) (name : String) :
    (r.writeAll slots).ownSlot? name = r.ownSlot? name := by
  induction slots generalizing r with
  | nil => rfl
  | cons e slots ih =>
    have hstep : (r.writeAll (e :: slots)) = (r.writeAttributes e.1 e.2).writeAll slots := rfl
    rw [hstep, ih]
    exact find?_writeAttributes e.1 e.2 (fun _ => rfl) r name

theorem keys_classes_writeAll (slots : List (String × List SlotDef)) (r : Registry) :
    (((r.writeAll slots).documents true).map fun d => d.classes.keys) =
      (r.documents true).map fun d => d.classes.keys :=
  map_writeAll (fun d className _ => d.classes.keys_modify className _) slots r

/-- Writing what stands there changes nothing. -/
theorem writeAttributes_eq_self {r : Registry} {className : String} {slots : List SlotDef}
    (h : ∀ c, r.class? className = some c → ∀ s ∈ slots, c.attributes.get? s.name = some s) :
    r.writeAttributes className slots = r := by
  rcases r.writeAttributes_cases className slots with ⟨_, hsame⟩ |
    ⟨older, key, d, newer, hr, _, hnewer, hw⟩
  · exact hsame
  · apply ext_entries
    have hd : d.withAttributes className slots = d := by
      have hclasses : d.classes.modify className (ClassDef.withAttributes slots) = d.classes := by
        apply Table.modify_eq_self
        intro c hc
        refine ClassDef.withAttributes_eq_self (h c ?_)
        unfold class? find?
        rw [findSome?_of_entries _ hr, findSome?_of_undeclared hnewer, hc]
        rfl
      unfold Schema.withAttributes
      rw [hclasses]
    rw [hw, hr, hd]

theorem writeAll_eq_self {slots : List (String × List SlotDef)} {r : Registry}
    (h : ∀ e ∈ slots, ∀ c, r.class? e.1 = some c → ∀ s ∈ e.2,
      c.attributes.get? s.name = some s) : r.writeAll slots = r := by
  induction slots with
  | nil => rfl
  | cons e slots ih =>
    have hstep : (r.writeAll (e :: slots)) = (r.writeAttributes e.1 e.2).writeAll slots := rfl
    rw [hstep, writeAttributes_eq_self (h e List.mem_cons_self)]
    exact ih fun f hf => h f (List.mem_cons_of_mem _ hf)

end Registry

end SlotFrame
