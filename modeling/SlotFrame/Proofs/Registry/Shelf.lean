import SlotFrame.Proofs.Registry.Writing

/-! # Documents without a promise

A shelf is a table of documents with a key that its primary document should stand under. Nothing in
it promises that there is one: to read, to edit and to fold may fail, and to register a document
writes over what stands under its reference. From a shelf of one document every sequence of changes
nevertheless leads to shelves that begin with their primary document, and it is not written over as
long as documents are registered under new references. What happens to a registry happens to its
shelf.

Main definitions: `Shelf`, `Shelf.Reachable`, `Registry.shelf`.

Main statements: `Shelf.Reachable.held`, `Shelf.Held.primary?_register` and
`Registry.shelf_insert`, `Registry.shelf_editPrimary`, `Registry.shelf_writeAttributes`,
`Registry.shelf_flatten`. -/

namespace SlotFrame

theorem dropKey_of_notMem {α : Type} {key : String} {es : List (String × α)}
    (h : key ∉ keysOf es) : dropKey key es = es := by
  induction es with
  | nil => rfl
  | cons e es ih =>
    rw [keysOf_cons, List.mem_cons, not_or] at h
    have hne : e.1 ≠ key := fun he => h.1 he.symm
    rw [dropKey, if_neg hne, ih h.2]

/-- Documents under their references, and the key of the one that should be primary. -/
@[ext] structure Shelf where
  key : String
  documents : Table Schema

namespace Shelf

/-! ### What may be done, and may fail -/

/-- The shelf of one document, whose elements are named. -/
def ofSchema (s : Schema) : Shelf :=
  ⟨Registry.keyOf s, (∅ : Table Schema).insert (Registry.keyOf s) s.normalize⟩

/-- The primary document, if it is there. -/
def primary? (c : Shelf) : Option Schema := c.documents.get? c.key

/-- Changes the primary document, if it is there. -/
def edit? (f : Schema → Schema) (c : Shelf) : Option Shelf :=
  c.primary?.map fun d => { c with documents := c.documents.insert c.key (f d) }

/-- Registers a document under a reference, whatever stands there. -/
def register (reference : String) (d : Schema) (c : Shelf) : Shelf :=
  { c with documents := c.documents.insert reference d }

/-- Tags every element with the document that declares it. -/
def tag (c : Shelf) : Shelf :=
  { c with documents := c.documents.map fun d => d.tagProvenance d.identity }

/-- The key of the newest document that declares a class. -/
def homeOf? (className : String) (c : Shelf) : Option String :=
  (c.documents.entries.reverse.find? fun e => e.2.classes.contains className).map Prod.fst

/-- Adds slots to the attributes of a class in the newest document that declares it. -/
def writeAttributes (className : String) (slots : List SlotDef) (c : Shelf) : Shelf :=
  match c.homeOf? className with
  | some key =>
    { c with documents := c.documents.modify key (Schema.withAttributes className slots) }
  | none => c

/-- Takes all documents away and puts the primary one back, with what it lacks of the others. -/
def fold (c : Shelf) : Result Shelf :=
  match c.primary? with
  | some primary =>
    let folded := (c.documents.erase c.key).values.foldl Schema.adopt primary
    .ok { c with documents := (∅ : Table Schema).insert c.key { folded with imports := [] } }
  | none => .error (.other ("primary schema '" ++ c.key ++ "' missing from registry"))

/-- The shelves that changes of the shelf of one document lead to, if documents are registered under
new references alone. -/
inductive Reachable (s : Schema) : Shelf → Prop
  | ofSchema : Reachable s (ofSchema s)
  | edit {c c' : Shelf} {f : Schema → Schema} (hc : Reachable s c) (h : c.edit? f = some c') :
      Reachable s c'
  | register {c : Shelf} {reference : String} (d : Schema)
      (new : ¬ c.documents.contains reference = true) (hc : Reachable s c) :
      Reachable s (c.register reference d)
  | tag {c : Shelf} (hc : Reachable s c) : Reachable s c.tag
  | writeAttributes {c : Shelf} (className : String) (slots : List SlotDef)
      (hc : Reachable s c) : Reachable s (c.writeAttributes className slots)
  | fold {c c' : Shelf} (hc : Reachable s c) (h : c.fold = .ok c') : Reachable s c'

/-! ### The primary document stays in front -/

variable {c c' : Shelf}

/-- A shelf that begins with its primary document. -/
def Held (c : Shelf) : Prop := c.documents.keys.head? = some c.key

theorem Held.of_keys (h : c.Held) (hkey : c'.key = c.key)
    (hkeys : c.documents.keys <+: c'.documents.keys) : c'.Held := by
  obtain ⟨rest, hrest⟩ := hkeys
  unfold Held at h ⊢
  rw [← hrest, hkey, List.head?_append, h]
  rfl

theorem Held.primary? (h : c.Held) : ∃ d, c.primary? = some d := by
  have hmem : c.key ∈ c.documents.keys := List.mem_of_mem_head? h
  exact Option.isSome_iff_exists.1 ((Table.mem_keys_iff _ _).1 hmem)

/-- A reference that is new is not the key of the primary document, which is left as it is. -/
theorem Held.primary?_register (h : c.Held) {reference : String} (d : Schema)
    (new : ¬ c.documents.contains reference = true) :
    (c.register reference d).primary? = c.primary? := by
  have hne : c.key ≠ reference := by
    rintro rfl
    exact new ((Table.contains_iff _ _).2 (List.mem_of_mem_head? h))
  show (c.documents.insert reference d).get? c.key = _
  rw [Table.get?_insert, if_neg hne]
  rfl

theorem Held.edit? (h : c.Held) (f : Schema → Schema) : ∃ c', c.edit? f = some c' := by
  obtain ⟨d, hd⟩ := h.primary?
  unfold Shelf.edit?
  rw [hd]
  exact ⟨_, rfl⟩

theorem Held.fold (h : c.Held) : ∃ c', c.fold = .ok c' := by
  obtain ⟨d, hd⟩ := h.primary?
  unfold Shelf.fold
  rw [hd]
  exact ⟨_, rfl⟩

/-- A key that is there keeps its place. -/
theorem edit?_cases {f : Schema → Schema} (h : c.edit? f = some c') :
    c'.key = c.key ∧ c'.documents.keys = c.documents.keys := by
  obtain ⟨d, hd, rfl⟩ := Option.map_eq_some_iff.1 h
  have hmem : c.key ∈ c.documents.keys := by
    rw [Table.mem_keys_iff, show c.documents.get? c.key = some d from hd]
    rfl
  exact ⟨rfl, (Table.keys_insert _ _ _).trans (if_pos hmem)⟩

theorem register_cases (reference : String) (d : Schema) (c : Shelf) :
    (c.register reference d).key = c.key ∧
      c.documents.keys <+: (c.register reference d).documents.keys := by
  refine ⟨rfl, ?_⟩
  show c.documents.keys <+: (c.documents.insert reference d).keys
  rw [Table.keys_insert]
  split
  · exact List.prefix_refl _
  · exact List.prefix_append _ _

theorem writeAttributes_cases (className : String) (slots : List SlotDef) (c : Shelf) :
    (c.writeAttributes className slots).key = c.key ∧
      (c.writeAttributes className slots).documents.keys = c.documents.keys := by
  unfold writeAttributes
  split
  · exact ⟨rfl, Table.keys_modify _ _ _⟩
  · exact ⟨rfl, rfl⟩

theorem fold_cases (h : c.fold = .ok c') : c'.key = c.key ∧ c'.documents.keys = [c.key] := by
  unfold fold at h
  split at h
  · cases h
    exact ⟨rfl, rfl⟩
  · cases h

/-- **The primary document is never lost**, though any change that needs it could fail: it stands in
front under the key that it was given first. -/
theorem Reachable.held {s : Schema} (hc : Reachable s c) :
    c.key = Registry.keyOf s ∧ c.Held := by
  induction hc with
  | ofSchema => exact ⟨rfl, rfl⟩
  | edit _ h ih =>
    obtain ⟨hkey, hkeys⟩ := edit?_cases h
    exact ⟨hkey.trans ih.1, ih.2.of_keys hkey (hkeys ▸ List.prefix_refl _)⟩
  | @register c reference d _ _ ih =>
    obtain ⟨hkey, hkeys⟩ := register_cases reference d c
    exact ⟨hkey.trans ih.1, ih.2.of_keys hkey hkeys⟩
  | @tag c _ ih =>
    have hkeys : c.tag.documents.keys = c.documents.keys := Table.keys_mapWithKey _ _
    exact ⟨ih.1, ih.2.of_keys rfl (hkeys ▸ List.prefix_refl _)⟩
  | @writeAttributes c className slots _ ih =>
    obtain ⟨hkey, hkeys⟩ := writeAttributes_cases className slots c
    exact ⟨hkey.trans ih.1, ih.2.of_keys hkey (hkeys ▸ List.prefix_refl _)⟩
  | fold _ h ih =>
    obtain ⟨hkey, hkeys⟩ := fold_cases h
    refine ⟨hkey.trans ih.1, ?_⟩
    unfold Held
    rw [hkeys, hkey]
    rfl

end Shelf

/-! ### Registries as shelves -/

namespace Registry

/-- The documents of a registry without its promises. -/
def shelf (r : Registry) : Shelf := ⟨r.key, ⟨r.entries, r.nodup_keys⟩⟩

variable (r : Registry)

theorem shelf_ofSchema (s : Schema) : (ofSchema s).shelf = Shelf.ofSchema s := rfl

theorem primary?_shelf : r.shelf.primary? = some r.primary := r.document?_key

theorem key_notMem_imported : r.key ∉ keysOf r.imported.entries :=
  (List.nodup_cons.1 r.nodup_keys).1

theorem shelf_editPrimary (f : Schema → Schema) :
    r.shelf.edit? f = some (r.editPrimary f).shelf := by
  unfold Shelf.edit?
  rw [primary?_shelf]
  refine congrArg some (Shelf.ext rfl (Table.ext ?_))
  show putKey r.key (f r.primary) ((r.key, r.primary) :: r.imported.entries) = _
  rw [putKey, if_pos rfl]
  rfl

theorem shelf_insert {reference : String} (d : Schema) (new : ¬ r.contains reference = true) :
    (r.insert reference d new).shelf = r.shelf.register reference d := by
  have hmem : reference ∉ r.keys := fun h => new ((r.contains_iff reference).2 h)
  exact Shelf.ext rfl (Table.ext ((entries_insert d new).trans (putKey_of_notMem hmem).symm))

theorem shelf_tag :
    (r.mapDocuments fun d => d.tagProvenance d.identity).shelf = r.shelf.tag := rfl

theorem shelf_modify (key : String) (f : Schema → Schema) :
    (r.modify key f).shelf = { r.shelf with documents := r.shelf.documents.modify key f } := by
  unfold modify
  by_cases hkey : key = r.key
  · rw [if_pos hkey, hkey]
    have hkeys : (keysOf ([] ++ (r.key, r.primary) :: r.imported.entries)).Nodup := r.nodup_keys
    exact Shelf.ext rfl (Table.ext (map_at_key hkeys f).symm)
  · rw [if_neg hkey]
    refine Shelf.ext rfl (Table.ext ?_)
    have hkey' : r.key ≠ key := fun h => hkey h.symm
    show (r.key, r.primary) :: _ = (r.key, if r.key = key then f r.primary else r.primary) :: _
    rw [if_neg hkey']
    rfl

theorem shelf_writeAttributes (className : String) (slots : List SlotDef) :
    (r.writeAttributes className slots).shelf = r.shelf.writeAttributes className slots := by
  have hhome : r.shelf.homeOf? className = r.homeOf? className := rfl
  unfold writeAttributes Shelf.writeAttributes
  rw [hhome]
  cases r.homeOf? className with
  | some key => exact r.shelf_modify key _
  | none => rfl

/-- A registry is folded without a fault. -/
theorem shelf_flatten : r.shelf.fold = .ok r.flatten.shelf := by
  have hrest : (r.shelf.documents.erase r.key).values = r.imported.values := by
    show (dropKey r.key ((r.key, r.primary) :: r.imported.entries)).map Prod.snd = _
    rw [dropKey, if_pos rfl, dropKey_of_notMem r.key_notMem_imported]
    rfl
  unfold Shelf.fold
  rw [primary?_shelf]
  dsimp only
  rw [show r.shelf.key = r.key from rfl, hrest]
  rfl

end Registry

end SlotFrame
