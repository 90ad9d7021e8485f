import SlotFrame.Proofs.Registry.Documents
import SlotFrame.Registry.Flatten
import SlotFrame.Registry.Order

/-! # What flattening keeps

Folding the imported documents into the primary one takes every name from the earliest document that
declares it, at the place where it is first declared. The tables of all elements take it from the
latest document and agree on the place, so flattening keeps the order of their names.

Main statements: `Registry.flattened_folded`, `Registry.flatten_sameNames`,
`Registry.flatten_selfContained`, `Registry.flatten_flatten`. -/

namespace SlotFrame

variable {α : Type}

/-- A table of exactly the names that some documents declare, in the order of first declaration,
each with what the earliest document says. -/
structure FirstDeclared (t : Table α) (select : Schema → Table α) (documents : List Schema) :
    Prop where
  keys : t.keys = (documents.flatMap fun d => (select d).keys).eraseDups
  get? : ∀ name, t.get? name = documents.findSome? fun d => (select d).get? name

/-- A document with the declarations and imports of another. -/
def Schema.declaring (s d : Schema) : Schema :=
  { s with
    classes := d.classes, slots := d.slots, types := d.types, enums := d.enums
    subsets := d.subsets, prefixes := d.prefixes, imports := d.imports }

/-- A document that declares what some documents declare, each name as the earliest of them does,
imports nothing, and in all else agrees with a primary document. -/
structure Schema.Folded (s : Schema) (primary : Schema) (documents : List Schema) : Prop where
  classes : FirstDeclared s.classes Schema.classes documents
  slots : FirstDeclared s.slots Schema.slots documents
  types : FirstDeclared s.types Schema.types documents
  enums : FirstDeclared s.enums Schema.enums documents
  subsets : FirstDeclared s.subsets Schema.subsets documents
  prefixes : FirstDeclared s.prefixes Schema.prefixes documents
  imports : s.imports = []
  others : s.declaring primary = primary

/-- What a folded document keeps is compared with any document that agrees with the primary one. -/
theorem Schema.Folded.of_declaring {s primary earlier : Schema} {documents : List Schema}
    (h : s.Folded primary documents) (he : primary.declaring earlier = earlier) :
    s.Folded earlier documents := by
  refine { h with others := ?_ }
  have hs : s.declaring earlier = (s.declaring primary).declaring earlier := rfl
  rw [hs, h.others, he]

/-! ### Adopting documents -/

/-- A selection of declarations that a document adopts like all others. -/
def Adopted (select : Schema → Table α) : Prop :=
  ∀ s d : Schema, select (s.adopt d) = (select s).addMissing (select d)

theorem foldl_adopt (select : Schema → Table α) (h : Adopted select) (documents : List Schema)
    (s : Schema) :
    select (documents.foldl Schema.adopt s) =
      documents.foldl (fun t d => t.addMissing (select d)) (select s) := by
  induction documents generalizing s with
  | nil => rfl
  | cons d documents ih => rw [List.foldl_cons, ih, h, List.foldl_cons]

theorem firstDeclared_foldl_adopt (select : Schema → Table α) (h : Adopted select)
    (documents : List Schema) (s : Schema) :
    FirstDeclared (select (documents.foldl Schema.adopt s)) select (s :: documents) where
  keys := by
    rw [foldl_adopt select h, Table.keys_foldl_addMissing, List.flatMap_cons]
  get? name := by
    rw [foldl_adopt select h, Table.get?_foldl_addMissing, List.findSome?_cons]
    cases (select s).get? name <;> rfl

/-- A field that adopting leaves alone is left alone by adopting any number of documents. -/
theorem foldl_adopt_field {β : Type} (field : Schema → β)
    (h : ∀ s d : Schema, field (s.adopt d) = field s) (documents : List Schema) (s : Schema) :
    field (documents.foldl Schema.adopt s) = field s := by
  induction documents generalizing s with
  | nil => rfl
  | cons d documents ih => rw [List.foldl_cons, ih, h]

namespace Registry

variable (r : Registry)

/-- **A flattened document maps every declared name to its earliest declaration**, in the order of
first declaration, imports nothing and keeps everything else. -/
theorem flattened_folded : r.flattened.Folded r.primary (r.documents true) where
  classes := firstDeclared_foldl_adopt Schema.classes (fun _ _ => rfl) r.imported.values r.primary
  slots := firstDeclared_foldl_adopt Schema.slots (fun _ _ => rfl) r.imported.values r.primary
  types := firstDeclared_foldl_adopt Schema.types (fun _ _ => rfl) r.imported.values r.primary
  enums := firstDeclared_foldl_adopt Schema.enums (fun _ _ => rfl) r.imported.values r.primary
  subsets := firstDeclared_foldl_adopt Schema.subsets (fun _ _ => rfl) r.imported.values r.primary
  prefixes := firstDeclared_foldl_adopt Schema.prefixes (fun _ _ => rfl) r.imported.values r.primary
  imports := rfl
  others := by
    -- Putting the primary declarations back undoes an adoption.
    have h := foldl_adopt_field (fun s => s.declaring r.primary) (fun _ _ => rfl)
      r.imported.values r.primary
    exact h

/-! ### The tables of all elements -/

theorem keys_aggregate {imports : Bool} (select : Schema → Table α) :
    (r.aggregate imports select).keys =
      ((r.documents imports).flatMap fun d => (select d).keys).eraseDups := by
  unfold aggregate
  rw [Table.keys_foldl_overwrite]
  rfl

/-- The first place of a name does not depend on which declaration of it is taken. -/
theorem keys_aggregate_flatten {select : Schema → Table α}
    (h : FirstDeclared (select r.flattened) select (r.documents true)) :
    (r.flatten.aggregate true select).keys = (r.aggregate true select).keys := by
  rw [keys_aggregate, keys_aggregate, ← h.keys]
  show ([r.flattened].flatMap fun d => (select d).keys).eraseDups = _
  rw [List.flatMap_singleton, eraseDups_of_nodup (Table.nodup_keys _)]

/-- Registries whose classes, types, enums and subsets come in the same order of names. -/
structure SameNames (r s : Registry) : Prop where
  classes : (r.classes true).keys = (s.classes true).keys
  types : (r.types true).keys = (s.types true).keys
  enums : (r.enums true).keys = (s.enums true).keys
  subsets : (r.subsets true).keys = (s.subsets true).keys

theorem flatten_sameNames : r.flatten.SameNames r where
  classes := r.keys_aggregate_flatten r.flattened_folded.classes
  types := r.keys_aggregate_flatten r.flattened_folded.types
  enums := r.keys_aggregate_flatten r.flattened_folded.enums
  subsets := r.keys_aggregate_flatten r.flattened_folded.subsets

/-- A registry whose elements are the same with the imports looked at and without, however they are
ordered. -/
structure SelfContained (r : Registry) : Prop where
  classes : ∀ o, (r.classes true).arrange o = (r.classes false).arrange o
  slots : ∀ o, (r.slots true).arrange o = (r.slots false).arrange o
  types : ∀ o, (r.types true).arrange o = (r.types false).arrange o
  enums : ∀ o, (r.enums true).arrange o = (r.enums false).arrange o
  subsets : ∀ o, (r.subsets true).arrange o = (r.subsets false).arrange o

/-- With no document imported it does not matter whether imports are looked at. -/
theorem selfContained_of_documents {r : Registry} (h : r.documents true = r.documents false) :
    r.SelfContained := by
  have ha : ∀ {α : Type} (select : Schema → Table α),
      r.aggregate true select = r.aggregate false select := by
    intro α select
    unfold aggregate
    rw [h]
  have hc : r.classes true = r.classes false := ha Schema.classes
  have hs : r.slots true = r.slots false := by
    unfold slots
    rw [hc, ha]
  have ht : r.types true = r.types false := ha Schema.types
  have he : r.enums true = r.enums false := ha Schema.enums
  have hb : r.subsets true = r.subsets false := ha Schema.subsets
  exact ⟨fun _ => by rw [hc], fun _ => by rw [hs], fun _ => by rw [ht], fun _ => by rw [he],
    fun _ => by rw [hb]⟩

theorem flatten_selfContained : r.flatten.SelfContained := selfContained_of_documents rfl

/-- Nothing is left to fold into a flattened document. -/
theorem flatten_flatten : r.flatten.flatten = r.flatten := rfl

end Registry

end SlotFrame
