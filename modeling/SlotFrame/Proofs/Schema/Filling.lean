import SlotFrame.Proofs.Data.Tables
import SlotFrame.Registry.Induction

/-! # The nearest definition decides

What a definition says after it is filled from a list of others: of every option the first of the
list that sets it, of every name, list and table of annotations the first that is not empty, and of
the fields without a place of their own the first value of each. `Metadata.Nearest`,
`SlotDef.Nearest` and `TypeDef.Nearest` say so field by field, and determine the definition.

Main statements: `SlotDef.nearest_fillFrom`, `SlotDef.Nearest.unique`, and the same of types. -/

namespace SlotFrame

/-- The first of some values that is not empty; the empty one if there is none. -/
def firstFilled {β : Type} (isEmpty : β → Bool) (empty : β) (values : List β) : β :=
  (values.find? fun v => ! isEmpty v).getD empty

/-- The first name that is not empty. -/
def firstName (names : List String) : String := firstFilled String.isEmpty "" names

/-- The first list that is not empty. -/
def firstList {α : Type} (lists : List (List α)) : List α := firstFilled List.isEmpty [] lists

/-- The first table that is not empty. -/
def firstTable {α : Type} (tables : List (Table α)) : Table α := firstFilled Table.isEmpty ∅ tables

/-! ### One field along a list -/

section fields

variable {δ β : Type} {fill : δ → δ → δ}

theorem foldl_fill_option {field : δ → Option β}
    (h : ∀ x y, field (fill x y) = (field x).or (field y)) (sources : List δ) (x : δ) :
    field (sources.foldl fill x) = (field x).or (sources.findSome? field) := by
  induction sources generalizing x with
  | nil => simp
  | cons y sources ih =>
    rw [List.foldl_cons, ih, h, Option.or_assoc, List.findSome?_cons]
    cases field y <;> rfl

theorem foldl_fill_first {isEmpty : β → Bool} {empty : β} {field : δ → β}
    (hempty : ∀ b, isEmpty b = true → b = empty)
    (h : ∀ x y, field (fill x y) = if isEmpty (field x) then field y else field x)
    (sources : List δ) (x : δ) :
    field (sources.foldl fill x) = firstFilled isEmpty empty ((x :: sources).map field) := by
  induction sources generalizing x with
  | nil =>
    cases hx : isEmpty (field x) with
    | true =>
      have he : field x = empty := hempty _ hx
      have hnone : isEmpty empty = true := he ▸ hx
      simp [firstFilled, he, hnone]
    | false => simp [firstFilled, hx]
  | cons y sources ih =>
    rw [List.foldl_cons, ih]
    cases hx : isEmpty (field x) with
    | true => simp [firstFilled, h, hx]
    | false => simp [firstFilled, h, hx]

theorem firstFilled_cons_empty {isEmpty : β → Bool} {empty b : β} (h : isEmpty b = true)
    (values : List β) :
    firstFilled isEmpty empty (b :: values) = firstFilled isEmpty empty values := by
  simp [firstFilled, h]

end fields

theorem foldl_fill_name {δ : Type} {fill : δ → δ → δ} {field : δ → String}
    (h : ∀ x y, field (fill x y) = fillName (field x) (field y)) (sources : List δ) {x : δ}
    (hx : field x = "") : field (sources.foldl fill x) = firstName (sources.map field) := by
  have hempty : ∀ b : String, b.isEmpty = true → b = "" := fun b hb => by simpa using hb
  rw [foldl_fill_first hempty h, List.map_cons, hx]
  exact firstFilled_cons_empty rfl _

theorem foldl_fill_list {δ α : Type} {fill : δ → δ → δ} {field : δ → List α}
    (h : ∀ x y, field (fill x y) = fillList (field x) (field y)) (sources : List δ) {x : δ}
    (hx : field x = []) : field (sources.foldl fill x) = firstList (sources.map field) := by
  have hempty : ∀ b : List α, b.isEmpty = true → b = [] := fun b hb => List.isEmpty_iff.1 hb
  rw [foldl_fill_first hempty h, List.map_cons, hx]
  exact firstFilled_cons_empty rfl _

theorem Table.eq_empty_of_isEmpty {α : Type} {t : Table α} (h : t.isEmpty = true) : t = ∅ :=
  Table.ext (List.isEmpty_iff.1 h)

theorem foldl_fill_table {δ α : Type} {fill : δ → δ → δ} {field : δ → Table α}
    (h : ∀ x y, field (fill x y) = fillTable (field x) (field y)) (sources : List δ) {x : δ}
    (hx : field x = ∅) : field (sources.foldl fill x) = firstTable (sources.map field) := by
  rw [foldl_fill_first (fun _ => Table.eq_empty_of_isEmpty) h, List.map_cons, hx]
  exact firstFilled_cons_empty rfl _

theorem foldl_fill_part {δ γ : Type} {fill : δ → δ → δ} {fillPart : γ → γ → γ} {part : δ → γ}
    (h : ∀ x y, part (fill x y) = fillPart (part x) (part y)) (sources : List δ) (x : δ) :
    part (sources.foldl fill x) = (sources.map part).foldl fillPart (part x) := by
  induction sources generalizing x with
  | nil => rfl
  | cons y sources ih => rw [List.foldl_cons, ih, h, List.map_cons, List.foldl_cons]

/-! ### Metadata -/

/-- Metadata whose every field is that of the first of some metadata that set it. -/
structure Metadata.Nearest (m : Metadata) (sources : List Metadata) : Prop where
  description : m.description = sources.findSome? Metadata.description
  title : m.title = sources.findSome? Metadata.title
  deprecated : m.deprecated = sources.findSome? Metadata.deprecated
  rank : m.rank = sources.findSome? Metadata.rank
  fromSchema : m.fromSchema = sources.findSome? Metadata.fromSchema
  aliases : m.aliases = firstList (sources.map Metadata.aliases)
  inSubset : m.inSubset = firstList (sources.map Metadata.inSubset)
  seeAlso : m.seeAlso = firstList (sources.map Metadata.seeAlso)
  comments : m.comments = firstList (sources.map Metadata.comments)
  notes : m.notes = firstList (sources.map Metadata.notes)
  todos : m.todos = firstList (sources.map Metadata.todos)
  exactMappings : m.exactMappings = firstList (sources.map Metadata.exactMappings)
  closeMappings : m.closeMappings = firstList (sources.map Metadata.closeMappings)
  relatedMappings : m.relatedMappings = firstList (sources.map Metadata.relatedMappings)
  narrowMappings : m.narrowMappings = firstList (sources.map Metadata.narrowMappings)
  broadMappings : m.broadMappings = firstList (sources.map Metadata.broadMappings)
  annotations : m.annotations = firstTable (sources.map Metadata.annotations)
  extra_keys : m.extra.keys = (sources.flatMap fun s => s.extra.keys).eraseDups
  extra_get? : ∀ key, m.extra.get? key = sources.findSome? fun s => s.extra.get? key

namespace Metadata

theorem extra_foldl_fill (sources : List Metadata) :
    (sources.foldl Metadata.fill {}).extra =
      sources.foldl (fun t (s : Metadata) => t.addMissing s.extra) ∅ := by
  have h : (sources.foldl Metadata.fill {}).extra =
      (sources.map Metadata.extra).foldl Table.addMissing ∅ :=
    foldl_fill_part (fun _ _ => rfl) sources _
  rw [h, List.foldl_map]

theorem nearest_foldl_fill (sources : List Metadata) :
    (sources.foldl Metadata.fill {}).Nearest sources where
  description := foldl_fill_option (fun _ _ => rfl) sources _
  title := foldl_fill_option (fun _ _ => rfl) sources _
  deprecated := foldl_fill_option (fun _ _ => rfl) sources _
  rank := foldl_fill_option (fun _ _ => rfl) sources _
  fromSchema := foldl_fill_option (fun _ _ => rfl) sources _
  aliases := foldl_fill_list (fun _ _ => rfl) sources rfl
  inSubset := foldl_fill_list (fun _ _ => rfl) sources rfl
  seeAlso := foldl_fill_list (fun _ _ => rfl) sources rfl
  comments := foldl_fill_list (fun _ _ => rfl) sources rfl
  notes := foldl_fill_list (fun _ _ => rfl) sources rfl
  todos := foldl_fill_list (fun _ _ => rfl) sources rfl
  exactMappings := foldl_fill_list (fun _ _ => rfl) sources rfl
  closeMappings := foldl_fill_list (fun _ _ => rfl) sources rfl
  relatedMappings := foldl_fill_list (fun _ _ => rfl) sources rfl
  narrowMappings := foldl_fill_list (fun _ _ => rfl) sources rfl
  broadMappings := foldl_fill_list (fun _ _ => rfl) sources rfl
  annotations := foldl_fill_table (fun _ _ => rfl) sources rfl
  extra_keys := by
    rw [extra_foldl_fill, Table.keys_foldl_addMissing]
    rfl
  extra_get? := by
    intro key
    rw [extra_foldl_fill, Table.get?_foldl_addMissing]
    rfl

theorem Nearest.unique {m n : Metadata} {sources : List Metadata} (hm : m.Nearest sources)
    (hn : n.Nearest sources) : m = n := by
  have hextra : m.extra = n.extra := by
    apply Table.ext_get?
    · rw [hm.extra_keys, hn.extra_keys]
    · intro key
      rw [hm.extra_get?, hn.extra_get?]
  exact Metadata.ext
    (hm.description.trans hn.description.symm) (hm.title.trans hn.title.symm)
    (hm.deprecated.trans hn.deprecated.symm) (hm.rank.trans hn.rank.symm)
    (hm.fromSchema.trans hn.fromSchema.symm) (hm.aliases.trans hn.aliases.symm)
    (hm.inSubset.trans hn.inSubset.symm) (hm.seeAlso.trans hn.seeAlso.symm)
    (hm.comments.trans hn.comments.symm) (hm.notes.trans hn.notes.symm)
    (hm.todos.trans hn.todos.symm) (hm.exactMappings.trans hn.exactMappings.symm)
    (hm.closeMappings.trans hn.closeMappings.symm)
    (hm.relatedMappings.trans hn.relatedMappings.symm)
    (hm.narrowMappings.trans hn.narrowMappings.symm)
    (hm.broadMappings.trans hn.broadMappings.symm) (hm.annotations.trans hn.annotations.symm)
    hextra

end Metadata

/-! ### Slots -/

/-- A slot whose every field is that of the first of some slots that set it. -/
structure SlotDef.Nearest (d : SlotDef) (sources : List SlotDef) : Prop where
  name : d.name = firstName (sources.map SlotDef.name)
  isA : d.isA = sources.findSome? SlotDef.isA
  mixins : d.mixins = firstList (sources.map SlotDef.mixins)
  isAbstract : d.isAbstract = sources.findSome? SlotDef.isAbstract
  isMixin : d.isMixin = sources.findSome? SlotDef.isMixin
  range : d.range = sources.findSome? SlotDef.range
  domain : d.domain = sources.findSome? SlotDef.domain
  required : d.required = sources.findSome? SlotDef.required
  recommended : d.recommended = sources.findSome? SlotDef.recommended
  multivalued : d.multivalued = sources.findSome? SlotDef.multivalued
  identifier : d.identifier = sources.findSome? SlotDef.identifier
  key : d.key = sources.findSome? SlotDef.key
  designatesType : d.designatesType = sources.findSome? SlotDef.designatesType
  inlined : d.inlined = sources.findSome? SlotDef.inlined
  inlinedAsList : d.inlinedAsList = sources.findSome? SlotDef.inlinedAsList
  slotUri : d.slotUri = sources.findSome? SlotDef.slotUri
  pattern : d.pattern = sources.findSome? SlotDef.pattern
  ifAbsent : d.ifAbsent = sources.findSome? SlotDef.ifAbsent
  minimumValue : d.minimumValue = sources.findSome? SlotDef.minimumValue
  maximumValue : d.maximumValue = sources.findSome? SlotDef.maximumValue
  owner : d.owner = sources.findSome? SlotDef.owner
  metadata : d.metadata.Nearest (sources.map SlotDef.metadata)

namespace SlotDef

/-- A slot filled from definitions takes every field from the nearest one. -/
theorem nearest_fillFrom (sources : List SlotDef) : (fillFrom sources).Nearest sources where
  name := foldl_fill_name (fun _ _ => rfl) sources rfl
  isA := foldl_fill_option (fun _ _ => rfl) sources _
  mixins := foldl_fill_list (fun _ _ => rfl) sources rfl
  isAbstract := foldl_fill_option (fun _ _ => rfl) sources _
  isMixin := foldl_fill_option (fun _ _ => rfl) sources _
  range := foldl_fill_option (fun _ _ => rfl) sources _
  domain := foldl_fill_option (fun _ _ => rfl) sources _
  required := foldl_fill_option (fun _ _ => rfl) sources _
  recommended := foldl_fill_option (fun _ _ => rfl) sources _
  multivalued := foldl_fill_option (fun _ _ => rfl) sources _
  identifier := foldl_fill_option (fun _ _ => rfl) sources _
  key := foldl_fill_option (fun _ _ => rfl) sources _
  designatesType := foldl_fill_option (fun _ _ => rfl) sources _
  inlined := foldl_fill_option (fun _ _ => rfl) sources _
  inlinedAsList := foldl_fill_option (fun _ _ => rfl) sources _
  slotUri := foldl_fill_option (fun _ _ => rfl) sources _
  pattern := foldl_fill_option (fun _ _ => rfl) sources _
  ifAbsent := foldl_fill_option (fun _ _ => rfl) sources _
  minimumValue := foldl_fill_option (fun _ _ => rfl) sources _
  maximumValue := foldl_fill_option (fun _ _ => rfl) sources _
  owner := foldl_fill_option (fun _ _ => rfl) sources _
  metadata := by
    have h : (fillFrom sources).metadata = (sources.map metadata).foldl Metadata.fill {} :=
      foldl_fill_part (fun _ _ => rfl) sources _
    rw [h]
    exact Metadata.nearest_foldl_fill _

/-- The nearest definitions leave no field open. -/
theorem Nearest.unique {d e : SlotDef} {sources : List SlotDef} (hd : d.Nearest sources)
    (he : e.Nearest sources) : d = e := by
  have hmeta : d.metadata = e.metadata := hd.metadata.unique he.metadata
  exact SlotDef.ext
    (hd.name.trans he.name.symm) (hd.isA.trans he.isA.symm) (hd.mixins.trans he.mixins.symm)
    (hd.isAbstract.trans he.isAbstract.symm) (hd.isMixin.trans he.isMixin.symm)
    (hd.range.trans he.range.symm) (hd.domain.trans he.domain.symm)
    (hd.required.trans he.required.symm) (hd.recommended.trans he.recommended.symm)
    (hd.multivalued.trans he.multivalued.symm) (hd.identifier.trans he.identifier.symm)
    (hd.key.trans he.key.symm) (hd.designatesType.trans he.designatesType.symm)
    (hd.inlined.trans he.inlined.symm) (hd.inlinedAsList.trans he.inlinedAsList.symm)
    (hd.slotUri.trans he.slotUri.symm) (hd.pattern.trans he.pattern.symm)
    (hd.ifAbsent.trans he.ifAbsent.symm) (hd.minimumValue.trans he.minimumValue.symm)
    (hd.maximumValue.trans he.maximumValue.symm) (hd.owner.trans he.owner.symm) hmeta

end SlotDef

/-! ### Types -/

/-- A type whose every field is that of the first of some types that set it. -/
structure TypeDef.Nearest (t : TypeDef) (sources : List TypeDef) : Prop where
  name : t.name = firstName (sources.map TypeDef.name)
  typeOf : t.typeOf = sources.findSome? TypeDef.typeOf
  base : t.base = sources.findSome? TypeDef.base
  uri : t.uri = sources.findSome? TypeDef.uri
  representation : t.representation = sources.findSome? TypeDef.representation
  pattern : t.pattern = sources.findSome? TypeDef.pattern
  minimumValue : t.minimumValue = sources.findSome? TypeDef.minimumValue
  maximumValue : t.maximumValue = sources.findSome? TypeDef.maximumValue
  metadata : t.metadata.Nearest (sources.map TypeDef.metadata)

namespace TypeDef

/-- A type filled from definitions takes every field from the nearest one. -/
theorem nearest_fillFrom (sources : List TypeDef) : (fillFrom sources).Nearest sources where
  name := foldl_fill_name (fun _ _ => rfl) sources rfl
  typeOf := foldl_fill_option (fun _ _ => rfl) sources _
  base := foldl_fill_option (fun _ _ => rfl) sources _
  uri := foldl_fill_option (fun _ _ => rfl) sources _
  representation := foldl_fill_option (fun _ _ => rfl) sources _
  pattern := foldl_fill_option (fun _ _ => rfl) sources _
  minimumValue := foldl_fill_option (fun _ _ => rfl) sources _
  maximumValue := foldl_fill_option (fun _ _ => rfl) sources _
  metadata := by
    have h : (fillFrom sources).metadata = (sources.map metadata).foldl Metadata.fill {} :=
      foldl_fill_part (fun _ _ => rfl) sources _
    rw [h]
    exact Metadata.nearest_foldl_fill _

/-- The nearest definitions leave no field open. -/
theorem Nearest.unique {t u : TypeDef} {sources : List TypeDef} (ht : t.Nearest sources)
    (hu : u.Nearest sources) : t = u := by
  have hmeta : t.metadata = u.metadata := ht.metadata.unique hu.metadata
  exact TypeDef.ext
    (ht.name.trans hu.name.symm) (ht.typeOf.trans hu.typeOf.symm) (ht.base.trans hu.base.symm)
    (ht.uri.trans hu.uri.symm) (ht.representation.trans hu.representation.symm)
    (ht.pattern.trans hu.pattern.symm) (ht.minimumValue.trans hu.minimumValue.symm)
    (ht.maximumValue.trans hu.maximumValue.symm) hmeta

end TypeDef

end SlotFrame
