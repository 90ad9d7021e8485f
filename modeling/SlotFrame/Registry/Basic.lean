import SlotFrame.Schema.Normalize

/-! # Registries of documents

A registry holds a primary document and the documents that it imports, in the order in which they
were found, each under the reference that led to it. The newest document wins a search for a name;
in a table of all elements it wins too, but the element stays where it first stood.

Main definitions: `Registry`, `Registry.find?`, `Registry.aggregate`, `Registry.slots`,
`Registry.elementOwners`. -/

namespace SlotFrame

/-- A primary document and the documents that it imports. -/
structure Registry where
  /-- What the primary document is registered under. -/
  key : String
  primary : Schema
  /-- The imported documents under their references. -/
  imported : Table Schema
  /-- No import is registered as the primary document. -/
  fresh : imported.contains key = false
  deriving Repr

namespace Registry

/-- What a document is registered under as the primary one. -/
def keyOf (s : Schema) : String :=
  if ! s.name.isEmpty then s.name else if ! s.id.isEmpty then s.id else "schema"

/-- The registry of one document, whose elements are named. -/
def ofSchema (s : Schema) : Registry where
  key := keyOf s
  primary := s.normalize
  imported := ∅
  fresh := rfl

instance : Inhabited Registry := ⟨ofSchema {}⟩

/-- The documents under their keys, the primary one first. -/
def entries (r : Registry) : List (String × Schema) := (r.key, r.primary) :: r.imported.entries

/-- The keys of the documents. -/
def keys (r : Registry) : List String := keysOf r.entries

/-- The documents, or the primary one alone. -/
def documents (r : Registry) (imports : Bool) : List Schema :=
  if imports then r.entries.map Prod.snd else [r.primary]

/-- The document under a key. -/
def document? (r : Registry) (key : String) : Option Schema := lookupKey key r.entries

/-- Whether there is a document under a key. -/
def contains (r : Registry) (key : String) : Bool := (r.document? key).isSome

/-- Changes the primary document. -/
def editPrimary (r : Registry) (f : Schema → Schema) : Registry :=
  { r with primary := f r.primary }

/-- Registers an imported document under a reference that is new. -/
def insert (r : Registry) (reference : String) (s : Schema)
    (new : ¬ r.contains reference = true) : Registry :=
  { r with
    imported := r.imported.insert reference s
    fresh := by
      have hne : r.key ≠ reference := by
        rintro rfl
        refine new ?_
        rw [contains, document?, entries, lookupKey, if_pos rfl]
        rfl
      rw [Table.contains, Table.get?_insert, if_neg hne]
      exact r.fresh }

/-- Changes every document. -/
def mapDocuments (r : Registry) (f : Schema → Schema) : Registry :=
  { r with
    primary := f r.primary
    imported := r.imported.map f
    fresh := by
      have h := r.fresh
      rw [Bool.eq_false_iff] at h ⊢
      rw [Ne, Table.contains_iff] at h ⊢
      simpa [Table.map] using h }

/-- Changes the document under a key. -/
def modify (r : Registry) (key : String) (f : Schema → Schema) : Registry :=
  if key = r.key then r.editPrimary f
  else { r with
    imported := r.imported.modify key f
    fresh := by
      have h := r.fresh
      rw [Bool.eq_false_iff] at h ⊢
      rw [Ne, Table.contains_iff] at h ⊢
      simpa [Table.modify] using h }

/-! ### Search by name -/

/-- An element of the newest document that declares its name. -/
def find? {α : Type} (r : Registry) (select : Schema → Table α) (name : String) : Option α :=
  (r.documents true).reverse.findSome? fun d => (select d).get? name

/-- A class. -/
def class? (r : Registry) (name : String) : Option ClassDef := r.find? Schema.classes name

/-- A slot that stands for itself and is no attribute. -/
def ownSlot? (r : Registry) (name : String) : Option SlotDef := r.find? Schema.slots name

/-- An attribute of the first class of a document that has one of its name. -/
def attributeIn? (name : String) (d : Schema) : Option SlotDef :=
  d.classes.values.findSome? fun c => c.attributes.get? name

/-- A slot, or else an attribute of any class. -/
def slot? (r : Registry) (name : String) : Option SlotDef :=
  (r.ownSlot? name).or ((r.documents true).reverse.findSome? (attributeIn? name))

/-- A type. -/
def type? (r : Registry) (name : String) : Option TypeDef := r.find? Schema.types name

/-- An enum. -/
def enum? (r : Registry) (name : String) : Option EnumDef := r.find? Schema.enums name

/-- A subset. -/
def subset? (r : Registry) (name : String) : Option SubsetDef := r.find? Schema.subsets name

/-! ### Tables of all elements -/

/-- All elements of a kind: where a name first stood, as it was last declared. -/
def aggregate {α : Type} (r : Registry) (imports : Bool) (select : Schema → Table α) : Table α :=
  (r.documents imports).foldl (fun all d => all.overwrite (select d)) ∅

/-- All classes. -/
def classes (r : Registry) (imports : Bool) : Table ClassDef := r.aggregate imports Schema.classes

/-- All slots, with the attributes of all classes whose names are no slots. -/
def slots (r : Registry) (imports : Bool) : Table SlotDef :=
  (r.classes imports).values.foldl (fun all c => all.addMissing c.attributes)
    (r.aggregate imports Schema.slots)

/-- All types. -/
def types (r : Registry) (imports : Bool) : Table TypeDef := r.aggregate imports Schema.types

/-- All enums. -/
def enums (r : Registry) (imports : Bool) : Table EnumDef := r.aggregate imports Schema.enums

/-- All subsets. -/
def subsets (r : Registry) (imports : Bool) : Table SubsetDef :=
  r.aggregate imports Schema.subsets

/-! ### Owners -/

/-- The names of the attributes of a document's classes. -/
def attributeNames (d : Schema) : List String := d.classes.values.flatMap fun c => c.attributes.keys

/-- The names that a document declares, the attributes of its classes last. -/
def declaredNames (d : Schema) : List String :=
  d.classes.keys ++ d.slots.keys ++ d.types.keys ++ d.enums.keys ++ d.subsets.keys ++
    attributeNames d

/-- For every declared name the name of the last document that declares it. -/
def elementOwners (r : Registry) : Table String :=
  (r.documents true).foldl (fun owners d =>
    (declaredNames d).foldl (fun owners n => owners.insert n d.name) owners) ∅

end Registry

end SlotFrame
