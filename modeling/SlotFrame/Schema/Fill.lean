import SlotFrame.Schema.Definition

/-! # Filling what is unset

`x.fill y` is `x` with every field that it leaves unset taken from `y`. Nothing that `x` sets is
overwritten: an option is unset when it is `none`, a name, a list or a table when it is empty, and
the fields without a place of their own are filled key by key. -/

namespace SlotFrame

/-- The first text unless it is empty. -/
def fillName (x y : String) : String := if x.isEmpty then y else x

/-- The first list unless it is empty. -/
def fillList {α : Type} (xs ys : List α) : List α := if xs.isEmpty then ys else xs

/-- The first table unless it is empty. -/
def fillTable {α : Type} (t u : Table α) : Table α := if t.isEmpty then u else t

/-- Fills the unset metadata. -/
def Metadata.fill (x y : Metadata) : Metadata where
  description := x.description.or y.description
  title := x.title.or y.title
  deprecated := x.deprecated.or y.deprecated
  rank := x.rank.or y.rank
  fromSchema := x.fromSchema.or y.fromSchema
  aliases := fillList x.aliases y.aliases
  inSubset := fillList x.inSubset y.inSubset
  seeAlso := fillList x.seeAlso y.seeAlso
  comments := fillList x.comments y.comments
  notes := fillList x.notes y.notes
  todos := fillList x.todos y.todos
  exactMappings := fillList x.exactMappings y.exactMappings
  closeMappings := fillList x.closeMappings y.closeMappings
  relatedMappings := fillList x.relatedMappings y.relatedMappings
  narrowMappings := fillList x.narrowMappings y.narrowMappings
  broadMappings := fillList x.broadMappings y.broadMappings
  annotations := fillTable x.annotations y.annotations
  extra := x.extra.addMissing y.extra

/-- Fills the unset fields of a slot. -/
def SlotDef.fill (x y : SlotDef) : SlotDef where
  name := fillName x.name y.name
  isA := x.isA.or y.isA
  mixins := fillList x.mixins y.mixins
  isAbstract := x.isAbstract.or y.isAbstract
  isMixin := x.isMixin.or y.isMixin
  range := x.range.or y.range
  domain := x.domain.or y.domain
  required := x.required.or y.required
  recommended := x.recommended.or y.recommended
  multivalued := x.multivalued.or y.multivalued
  identifier := x.identifier.or y.identifier
  key := x.key.or y.key
  designatesType := x.designatesType.or y.designatesType
  inlined := x.inlined.or y.inlined
  inlinedAsList := x.inlinedAsList.or y.inlinedAsList
  slotUri := x.slotUri.or y.slotUri
  pattern := x.pattern.or y.pattern
  ifAbsent := x.ifAbsent.or y.ifAbsent
  minimumValue := x.minimumValue.or y.minimumValue
  maximumValue := x.maximumValue.or y.maximumValue
  owner := x.owner.or y.owner
  metadata := x.metadata.fill y.metadata

/-- Fills the unset fields of a type. -/
def TypeDef.fill (x y : TypeDef) : TypeDef where
  name := fillName x.name y.name
  typeOf := x.typeOf.or y.typeOf
  base := x.base.or y.base
  uri := x.uri.or y.uri
  representation := x.representation.or y.representation
  pattern := x.pattern.or y.pattern
  minimumValue := x.minimumValue.or y.minimumValue
  maximumValue := x.maximumValue.or y.maximumValue
  metadata := x.metadata.fill y.metadata

/-- Fills the unset fields of a class. -/
def ClassDef.fill (x y : ClassDef) : ClassDef where
  name := fillName x.name y.name
  isA := x.isA.or y.isA
  mixins := fillList x.mixins y.mixins
  isAbstract := x.isAbstract.or y.isAbstract
  isMixin := x.isMixin.or y.isMixin
  slots := fillList x.slots y.slots
  slotUsage := fillTable x.slotUsage y.slotUsage
  attributes := fillTable x.attributes y.attributes
  classUri := x.classUri.or y.classUri
  treeRoot := x.treeRoot.or y.treeRoot
  metadata := x.metadata.fill y.metadata

end SlotFrame
