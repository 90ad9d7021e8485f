import SlotFrame.Schema.Definition

/-! # Definitions as values

A definition is written as a record of its declared fields in their fixed order, then its metadata,
then the fields without a place of their own. What is unset is left out; only names are always
written. -/

namespace SlotFrame

/-- A field and its value, or nothing if it is unset. -/
abbrev FieldSlot := String × Option Value

/-- The record of the fields that are set. -/
def recordOf (fields : List FieldSlot) : List (String × Value) :=
  fields.filterMap fun f => f.2.map fun v => (f.1, v)

namespace Value

/-- An optional text. -/
def ofText? (s : Option String) : Option Value := s.map .text

/-- An optional truth value. -/
def ofBool? (b : Option Bool) : Option Value := b.map .bool

/-- A list of texts, left out when it is empty. -/
def ofTexts? (xs : List String) : Option Value :=
  if xs.isEmpty then none else some (.list (xs.map .text))

/-- A table, left out when it is empty. -/
def ofTable? {α : Type} (encode : α → Value) (t : Table α) : Option Value :=
  if t.isEmpty then none else some (.record (t.map encode).entries)

end Value

open Value

namespace Metadata

/-- The declared fields of metadata. -/
def fieldSlots (m : Metadata) : List FieldSlot :=
  [("description", ofText? m.description),
   ("title", ofText? m.title),
   ("deprecated", ofText? m.deprecated),
   ("rank", m.rank.map fun r => .number (.int r)),
   ("from_schema", ofText? m.fromSchema),
   ("aliases", ofTexts? m.aliases),
   ("in_subset", ofTexts? m.inSubset),
   ("see_also", ofTexts? m.seeAlso),
   ("comments", ofTexts? m.comments),
   ("notes", ofTexts? m.notes),
   ("todos", ofTexts? m.todos),
   ("exact_mappings", ofTexts? m.exactMappings),
   ("close_mappings", ofTexts? m.closeMappings),
   ("related_mappings", ofTexts? m.relatedMappings),
   ("narrow_mappings", ofTexts? m.narrowMappings),
   ("broad_mappings", ofTexts? m.broadMappings),
   ("annotations", ofTable? id m.annotations)]

/-- All fields of metadata. -/
def fields (m : Metadata) : List (String × Value) := recordOf m.fieldSlots ++ m.extra.entries

/-- Metadata as a value. -/
def encode (m : Metadata) : Value := .record m.fields

end Metadata

namespace SlotDef

/-- The fields of a slot besides its metadata. -/
def fieldSlots (d : SlotDef) : List FieldSlot :=
  [("name", some (.text d.name)),
   ("is_a", ofText? d.isA),
   ("mixins", ofTexts? d.mixins),
   ("abstract", ofBool? d.isAbstract),
   ("mixin", ofBool? d.isMixin),
   ("range", ofText? d.range),
   ("domain", ofText? d.domain),
   ("required", ofBool? d.required),
   ("recommended", ofBool? d.recommended),
   ("multivalued", ofBool? d.multivalued),
   ("identifier", ofBool? d.identifier),
   ("key", ofBool? d.key),
   ("designates_type", ofBool? d.designatesType),
   ("inlined", ofBool? d.inlined),
   ("inlined_as_list", ofBool? d.inlinedAsList),
   ("slot_uri", ofText? d.slotUri),
   ("pattern", ofText? d.pattern),
   ("ifabsent", ofText? d.ifAbsent),
   ("minimum_value", d.minimumValue),
   ("maximum_value", d.maximumValue),
   ("owner", ofText? d.owner)]

/-- A slot as a value. -/
def encode (d : SlotDef) : Value := .record (recordOf d.fieldSlots ++ d.metadata.fields)

end SlotDef

namespace ClassDef

/-- The fields of a class besides its metadata. -/
def fieldSlots (d : ClassDef) : List FieldSlot :=
  [("name", some (.text d.name)),
   ("is_a", ofText? d.isA),
   ("mixins", ofTexts? d.mixins),
   ("abstract", ofBool? d.isAbstract),
   ("mixin", ofBool? d.isMixin),
   ("slots", ofTexts? d.slots),
   ("slot_usage", ofTable? SlotDef.encode d.slotUsage),
   ("attributes", ofTable? SlotDef.encode d.attributes),
   ("class_uri", ofText? d.classUri),
   ("tree_root", ofBool? d.treeRoot)]

/-- A class as a value. -/
def encode (d : ClassDef) : Value := .record (recordOf d.fieldSlots ++ d.metadata.fields)

end ClassDef

namespace TypeDef

/-- The fields of a type besides its metadata. -/
def fieldSlots (d : TypeDef) : List FieldSlot :=
  [("name", some (.text d.name)),
   ("typeof", ofText? d.typeOf),
   ("base", ofText? d.base),
   ("uri", ofText? d.uri),
   ("repr", ofText? d.representation),
   ("pattern", ofText? d.pattern),
   ("minimum_value", d.minimumValue),
   ("maximum_value", d.maximumValue)]

/-- A type as a value. -/
def encode (d : TypeDef) : Value := .record (recordOf d.fieldSlots ++ d.metadata.fields)

end TypeDef

namespace PermissibleValue

/-- The declared fields of a permissible value. -/
def fieldSlots (v : PermissibleValue) : List FieldSlot :=
  [("text", some (.text v.text)),
   ("description", ofText? v.description),
   ("meaning", ofText? v.meaning)]

/-- A permissible value as a value. -/
def encode (v : PermissibleValue) : Value := .record (recordOf v.fieldSlots ++ v.extra.entries)

end PermissibleValue

namespace EnumDef

/-- The fields of an enum besides its metadata. -/
def fieldSlots (d : EnumDef) : List FieldSlot :=
  [("name", some (.text d.name)),
   ("enum_uri", ofText? d.enumUri),
   ("code_set", ofText? d.codeSet),
   ("permissible_values", ofTable? PermissibleValue.encode d.permissibleValues)]

/-- An enum as a value. -/
def encode (d : EnumDef) : Value := .record (recordOf d.fieldSlots ++ d.metadata.fields)

end EnumDef

/-- A subset as a value. -/
def SubsetDef.encode (d : SubsetDef) : Value :=
  .record (recordOf [("name", some (.text d.name))] ++ d.metadata.fields)

/-- A prefix as a value. -/
def PrefixDef.encode : PrefixDef → Value
  | simple reference => .text reference
  | detailed label reference =>
    .record (recordOf
      [("prefix_prefix", ofText? label), ("prefix_reference", some (.text reference))])

namespace Schema

/-- The declared fields of a document. -/
def fieldSlots (s : Schema) : List FieldSlot :=
  [("id", if s.id.isEmpty then none else some (.text s.id)),
   ("name", some (.text s.name)),
   ("title", ofText? s.title),
   ("description", ofText? s.description),
   ("version", ofText? s.version),
   ("license", ofText? s.license),
   ("default_prefix", ofText? s.defaultPrefix),
   ("default_range", ofText? s.defaultRange),
   ("prefixes", ofTable? PrefixDef.encode s.prefixes),
   ("default_curi_maps", ofTexts? s.defaultCuriMaps),
   ("imports", ofTexts? s.imports),
   ("subsets", ofTable? SubsetDef.encode s.subsets),
   ("types", ofTable? TypeDef.encode s.types),
   ("enums", ofTable? EnumDef.encode s.enums),
   ("slots", ofTable? SlotDef.encode s.slots),
   ("classes", ofTable? ClassDef.encode s.classes),
   ("source_file", ofText? s.sourceFile)]

/-- A document as a value. -/
def encode (s : Schema) : Value := .record (recordOf s.fieldSlots ++ s.extra.entries)

end Schema

end SlotFrame
