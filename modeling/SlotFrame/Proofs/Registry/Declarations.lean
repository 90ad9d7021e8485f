import SlotFrame.Proofs.Registry.SlotTable
import SlotFrame.Proofs.View.Remembering

/-! # Where a name is declared

A name may be declared by several documents and in several ways. A search for an element, the table
of all elements of its kind and the index of owners go through the documents each in its own way,
and all take the last one: the search and the table the last that declares the name in their kind,
the index the last that declares it in any. So the index names the document whose definition is
found wherever a name is declared in one way only.

Main definitions: `IsLast`, `Schema.Declares`, `Registry.Listed`.

Main statements: `Registry.find?_eq_some_iff`, `Registry.get?_elementOwners_eq_some_iff` (both take
the last document) and `View.Reachable.lookups_listed`. -/

namespace SlotFrame

variable {α β : Type}

/-! ### The last of a list -/

/-- An element of a list that has a property, and none behind it has. -/
def IsLast (xs : List α) (P : α → Prop) (x : α) : Prop :=
  ∃ before after, xs = before ++ x :: after ∧ P x ∧ ∀ y ∈ after, ¬ P y

theorem IsLast.congr {xs : List α} {P Q : α → Prop} {x : α} (h : IsLast xs P x)
    (hPQ : ∀ y ∈ xs, P y ↔ Q y) : IsLast xs Q x := by
  obtain ⟨before, after, rfl, hx, hafter⟩ := h
  refine ⟨before, after, rfl, (hPQ x (by simp)).1 hx, fun y hy hQ => ?_⟩
  exact hafter y hy ((hPQ y (by simp [hy])).2 hQ)

/-- A list in reverse is split where the list is. -/
theorem reverse_eq_append_cons_iff {xs before after : List α} {x : α} :
    xs.reverse = before ++ x :: after ↔ xs = after.reverse ++ x :: before.reverse := by
  rw [List.reverse_eq_iff]
  simp

theorem find?_reverse_eq_some_iff {xs : List α} {P : α → Prop} [DecidablePred P] {x : α} :
    xs.reverse.find? (fun y => decide (P y)) = some x ↔ IsLast xs P x := by
  rw [List.find?_eq_some_iff_append]
  constructor
  · rintro ⟨hx, before, after, hsplit, hbefore⟩
    refine ⟨after.reverse, before.reverse, reverse_eq_append_cons_iff.1 hsplit,
      by simpa using hx, ?_⟩
    intro y hy
    simpa using hbefore y (List.mem_reverse.1 hy)
  · rintro ⟨before, after, hsplit, hx, hafter⟩
    refine ⟨by simpa using hx, after.reverse, before.reverse, ?_, ?_⟩
    · rw [reverse_eq_append_cons_iff, List.reverse_reverse, List.reverse_reverse]
      exact hsplit
    · intro y hy
      simpa using hafter y (List.mem_reverse.1 hy)

theorem findSome?_reverse_eq_some_iff {xs : List α} {f : α → Option β} {b : β} :
    xs.reverse.findSome? f = some b ↔
      ∃ x, IsLast xs (fun y => (f y).isSome = true) x ∧ f x = some b := by
  rw [List.findSome?_eq_some_iff]
  constructor
  · rintro ⟨before, x, after, hsplit, hx, hbefore⟩
    refine ⟨x, ⟨after.reverse, before.reverse, reverse_eq_append_cons_iff.1 hsplit, ?_, ?_⟩, hx⟩
    · exact Option.isSome_of_mem hx
    · intro y hy
      simpa using hbefore y (List.mem_reverse.1 hy)
  · rintro ⟨x, ⟨before, after, hsplit, _, hafter⟩, hx⟩
    refine ⟨after.reverse, x, before.reverse, ?_, hx, ?_⟩
    · rw [reverse_eq_append_cons_iff, List.reverse_reverse, List.reverse_reverse]
      exact hsplit
    · intro y hy
      simpa using hafter y (List.mem_reverse.1 hy)

/-! ### Declarations -/

/-- The ways in which a document declares a name. -/
inductive DeclarationKind where
  | classDef
  | slotDef
  | typeDef
  | enumDef
  | subsetDef
  /-- As an attribute of one of the classes of the document. -/
  | attributeDef
  deriving DecidableEq, Repr

/-- A document declares a name. -/
def Schema.Declares (d : Schema) (n : String) : DeclarationKind → Prop
  | .classDef => n ∈ d.classes.keys
  | .slotDef => n ∈ d.slots.keys
  | .typeDef => n ∈ d.types.keys
  | .enumDef => n ∈ d.enums.keys
  | .subsetDef => n ∈ d.subsets.keys
  | .attributeDef => ∃ c ∈ d.classes.values, n ∈ c.attributes.keys

namespace Registry

theorem mem_declaredNames_iff {d : Schema} {n : String} :
    n ∈ declaredNames d ↔ ∃ kind, d.Declares n kind := by
  unfold declaredNames attributeNames
  simp only [List.mem_append, List.mem_flatMap]
  constructor
  · rintro (((((h | h) | h) | h) | h) | h)
    · exact ⟨.classDef, h⟩
    · exact ⟨.slotDef, h⟩
    · exact ⟨.typeDef, h⟩
    · exact ⟨.enumDef, h⟩
    · exact ⟨.subsetDef, h⟩
    · exact ⟨.attributeDef, h⟩
  · rintro ⟨kind, h⟩
    cases kind with
    | classDef => exact .inl (.inl (.inl (.inl (.inl h))))
    | slotDef => exact .inl (.inl (.inl (.inl (.inr h))))
    | typeDef => exact .inl (.inl (.inl (.inr h)))
    | enumDef => exact .inl (.inl (.inr h))
    | subsetDef => exact .inl (.inr h)
    | attributeDef => exact .inr h

variable (r : Registry)

/-- A search takes the last document that declares the name. -/
theorem find?_eq_some_iff {select : Schema → Table α} {n : String} {a : α} :
    r.find? select n = some a ↔
      ∃ d, IsLast (r.documents true) (fun d => n ∈ (select d).keys) d ∧
        (select d).get? n = some a := by
  have hkeys : ∀ d : Schema, ((select d).get? n).isSome = true ↔ n ∈ (select d).keys :=
    fun d => (Table.mem_keys_iff _ _).symm
  unfold find?
  rw [findSome?_reverse_eq_some_iff]
  constructor
  · rintro ⟨d, hlast, hd⟩
    exact ⟨d, hlast.congr fun e _ => hkeys e, hd⟩
  · rintro ⟨d, hlast, hd⟩
    exact ⟨d, hlast.congr fun e _ => (hkeys e).symm, hd⟩

/-! ### Owners -/

theorem get?_foldl_insert_const (names : List String) (owner : String) (t : Table String)
    (n : String) :
    (names.foldl (fun t n => t.insert n owner) t).get? n =
      if n ∈ names then some owner else t.get? n := by
  induction names generalizing t with
  | nil => simp
  | cons m names ih =>
    rw [List.foldl_cons, ih, Table.get?_insert]
    by_cases hmem : n ∈ names
    · simp [hmem]
    · simp [hmem]

/-- Whoever declares a name takes it from those before, so the last to declare it owns it. -/
theorem get?_elementOwners (n : String) : r.elementOwners.get? n =
    ((r.documents true).reverse.find? fun d => decide (n ∈ declaredNames d)).map Schema.name := by
  have hall : ∀ (documents : List Schema) (t : Table String),
      (documents.foldl (fun t d => (declaredNames d).foldl (fun t n => t.insert n d.name) t)
        t).get? n =
      ((documents.reverse.find? fun d => decide (n ∈ declaredNames d)).map Schema.name).or
        (t.get? n) := by
    intro documents
    induction documents with
    | nil => exact fun t => rfl
    | cons d documents ih =>
      intro t
      rw [List.foldl_cons, ih, get?_foldl_insert_const, List.reverse_cons, List.find?_append]
      cases documents.reverse.find? fun d => decide (n ∈ declaredNames d) with
      | some e => rfl
      | none =>
        by_cases hn : n ∈ declaredNames d
        · simp [hn]
        · simp [hn]
  unfold elementOwners
  rw [hall, Table.get?_empty, Option.or_none]

theorem get?_elementOwners_eq_some_iff {n owner : String} :
    r.elementOwners.get? n = some owner ↔
      ∃ d, IsLast (r.documents true) (fun d => ∃ kind, d.Declares n kind) d ∧ d.name = owner := by
  rw [get?_elementOwners, Option.map_eq_some_iff]
  constructor
  · rintro ⟨d, hd, howner⟩
    exact ⟨d, (find?_reverse_eq_some_iff.1 hd).congr fun e _ => mem_declaredNames_iff, howner⟩
  · rintro ⟨d, hd, howner⟩
    exact ⟨d, find?_reverse_eq_some_iff.2 (hd.congr fun e _ => mem_declaredNames_iff.symm), howner⟩

theorem get?_elementOwners_eq_none_iff {n : String} :
    r.elementOwners.get? n = none ↔ ∀ d ∈ r.documents true, ∀ kind, ¬ d.Declares n kind := by
  rw [get?_elementOwners, Option.map_eq_none_iff, List.find?_eq_none]
  simp only [List.mem_reverse, decide_eq_true_eq, mem_declaredNames_iff, not_exists]

/-! ### Three views of one kind -/

/-- The elements of a kind as they are found, as they are listed in a table, and as an index of
owners sees them: the table, however it is ordered, has the names that are found and the definitions
that are found for them; it has the names in the order in which they were first declared; and for a
name that is declared in this kind only the index names the document whose definition is found, the
last that declares it. -/
structure Listed [Element α] (kind : DeclarationKind) (select : Schema → Table α)
    (find : String → Option α) (all : Table α) (owner : String → Result (Option String)) :
    Prop where
  found_iff : ∀ (o : ElementOrder) n, (find n).isSome = true ↔ n ∈ (all.arrange o).keys
  found : ∀ (o : ElementOrder) n, (all.arrange o).get? n = find n
  declared : (all.arrange .declared).keys =
    ((r.documents true).flatMap fun d => (select d).keys).eraseDups
  owned : ∀ n, (∃ d ∈ r.documents true, d.Declares n kind) →
    (∀ d ∈ r.documents true, ∀ kind', d.Declares n kind' → kind' = kind) →
    ∃ d a, IsLast (r.documents true) (fun d => d.Declares n kind) d ∧
      (select d).get? n = some a ∧ find n = some a ∧ owner n = .ok (some d.name)

variable {r} in
theorem listed_aggregate [Element α] {kind : DeclarationKind} {select : Schema → Table α}
    (hkind : ∀ (d : Schema) n, d.Declares n kind ↔ n ∈ (select d).keys)
    {owner : String → Result (Option String)}
    (howner : ∀ n, owner n = .ok (r.elementOwners.get? n)) :
    r.Listed kind select (r.find? select) (r.aggregate true select) owner where
  found_iff o n := by
    rw [Table.mem_keys_iff, Table.get?_arrange, get?_aggregate]
  found o n := by
    rw [Table.get?_arrange, get?_aggregate]
  declared := r.keys_aggregate select
  owned n hsome honly := by
    obtain ⟨d, hd, hn⟩ := hsome
    have hfound : n ∈ (r.aggregate true select).keys := by
      rw [keys_aggregate, List.mem_eraseDups]
      exact List.mem_flatMap.2 ⟨d, hd, (hkind d n).1 hn⟩
    rw [Table.mem_keys_iff, get?_aggregate] at hfound
    obtain ⟨a, ha⟩ := Option.isSome_iff_exists.1 hfound
    obtain ⟨e, hlast, he⟩ := r.find?_eq_some_iff.1 ha
    have hlast' : IsLast (r.documents true) (fun d => d.Declares n kind) e :=
      hlast.congr fun e _ => (hkind e n).symm
    -- declared in one way only, so the last to declare it in that way is the last to declare it
    have hany : IsLast (r.documents true) (fun d => ∃ kind', d.Declares n kind') e := by
      refine hlast'.congr fun e he => ⟨fun h => ⟨kind, h⟩, ?_⟩
      rintro ⟨kind', h⟩
      rw [← honly e he kind' h]
      exact h
    refine ⟨e, a, hlast', he, ha, ?_⟩
    rw [howner, r.get?_elementOwners_eq_some_iff.2 ⟨e, hany, rfl⟩]

end Registry

namespace View

/-- **Lookups, tables and owners agree.** Classes, types, enums and subsets are found as the tables
of all of them list them. A view answers as the owner of a name the last document that declares it
in any way, and none if no document does. -/
theorem Reachable.lookups_listed {v : View} (hv : v.Reachable) :
    let r := v.registry
    let owner := fun n => (v.ask (ownerOf n)).1
    r.Listed .classDef Schema.classes r.class? (r.classes true) owner ∧
    r.Listed .typeDef Schema.types r.type? (r.types true) owner ∧
    r.Listed .enumDef Schema.enums r.enum? (r.enums true) owner ∧
    r.Listed .subsetDef Schema.subsets r.subset? (r.subsets true) owner ∧
    (∀ n name, owner n = .ok (some name) ↔
      ∃ d, IsLast (r.documents true) (fun d => ∃ kind, d.Declares n kind) d ∧ d.name = name) ∧
    ∀ n, owner n = .ok none ↔ ∀ d ∈ r.documents true, ∀ kind, ¬ d.Declares n kind := by
  intro r owner
  have howner : ∀ n, owner n = .ok (r.elementOwners.get? n) := fun n =>
    ((answers_ownerOf n).eq_forget hv).2
  refine ⟨Registry.listed_aggregate (fun _ _ => Iff.rfl) howner,
    Registry.listed_aggregate (fun _ _ => Iff.rfl) howner,
    Registry.listed_aggregate (fun _ _ => Iff.rfl) howner,
    Registry.listed_aggregate (fun _ _ => Iff.rfl) howner, fun n name => ?_, fun n => ?_⟩
  · rw [howner, Except.ok.injEq]
    exact r.get?_elementOwners_eq_some_iff
  · rw [howner, Except.ok.injEq]
    exact r.get?_elementOwners_eq_none_iff

/-- The view of a document with classes and a unit, and of an imported one that declares one of the
classes anew, units as an enum, and a class under the name of an attribute. -/
def overlapping : View :=
  (((View.ofSchema
    { name := "p"
      imports := ["x.json"]
      types := Table.ofList [("Unit", {})]
      classes := Table.ofList
        [("House", Registry.attributed [("room", "string")]), ("Garden", {})] }
    {}).loadImports (m := StateM Unit) (.ofTable <| Table.ofList
      [("x.json", .text ("\x7b\"name\": \"x\", \"enums\": \x7b\"Unit\": null\x7d, " ++
        "\"classes\": \x7b\"room\": null, \"House\": \x7b\"is_a\": \"room\"\x7d\x7d\x7d"))]) ∅).run
      ()).1.2

/-- The newer document owns the house, which is found as it declares it, and the unit; the garden is
left to the older one. -/
theorem lookups_listed_overlapping :
    overlapping.Reachable ∧ overlapping.registry.keys = ["p", "x.json"] ∧
    ((overlapping.registry.classes true).arrange .declared).keys = ["House", "Garden", "room"] ∧
    (∀ o, ((overlapping.registry.classes true).arrange o).get? "House" =
      overlapping.registry.class? "House") ∧
    (overlapping.registry.class? "House").bind ClassDef.isA = some "room" ∧
    (∀ e ∈ [("House", "x"), ("Unit", "x"), ("Garden", "p")],
      (overlapping.ask (ownerOf e.1)).1 = .ok (some e.2) ∧
      ∃ d, IsLast (overlapping.registry.documents true) (fun d => ∃ kind, d.Declares e.1 kind) d ∧
        d.name = e.2) ∧
    (∀ d ∈ overlapping.registry.documents true, ∀ kind, ¬ d.Declares "Shed" kind) := by
  have hv : overlapping.Reachable := .loadImports _ ∅ () (.ofSchema _ _)
  have hall : overlapping.registry.keys = ["p", "x.json"] ∧
      ((overlapping.registry.classes true).arrange .declared).keys = ["House", "Garden", "room"] ∧
      (overlapping.registry.class? "House").bind ClassDef.isA = some "room" ∧
      (∀ e ∈ [("House", "x"), ("Unit", "x"), ("Garden", "p")],
        (overlapping.ask (ownerOf e.1)).1 = .ok (some e.2)) ∧
      (overlapping.ask (ownerOf "Shed")).1 = .ok none := by decide +kernel
  obtain ⟨hkeys, hclasses, hhouse, howners, hshed⟩ := hall
  obtain ⟨hlisted, _, _, _, howner, hnone⟩ := hv.lookups_listed
  exact ⟨hv, hkeys, hclasses, fun o => hlisted.found o "House", hhouse,
    fun e he => ⟨howners e he, (howner e.1 e.2).1 (howners e he)⟩, (hnone "Shed").1 hshed⟩

end View

end SlotFrame
