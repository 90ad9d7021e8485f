import SlotFrame.Data.Value

/-! # Definitions

A schema document declares classes, slots, types, enums and subsets under their names. Every
definition carries shared metadata, and `extra` keeps the fields that have no place of their own.

Main definitions: `Metadata`, `SlotDef`, `ClassDef`, `TypeDef`, `EnumDef`, `SubsetDef`, `Schema`,
and the views that they share, `Element` and `Inheriting`. -/

namespace SlotFrame

/-- The kinds of elements. -/
inductive ElementKind where
  | classDef
  | slotDef
  | typeDef
  | enumDef
  | subsetDef
  | schemaDoc
  deriving DecidableEq, Repr

/-- The word for a kind. -/
def ElementKind.label : ElementKind → String
  | classDef => "class"
  | slotDef => "slot"
  | typeDef => "type"
  | enumDef => "enum"
  | subsetDef => "subset"
  | schemaDoc => "schema"

/-- What every definition may say about itself. -/
@[ext] structure Metadata where
  description : Option String := none
  title : Option String := none
  deprecated : Option String := none
  rank : Option Int := none
  /-- The identity of the document that declares the element. -/
  fromSchema : Option String := none
  aliases : List String := []
  inSubset : List String := []
  seeAlso : List String := []
  comments : List String := []
  notes : List String := []
  todos : List String := []
  exactMappings : List String := []
  closeMappings : List String := []
  relatedMappings : List String := []
  narrowMappings : List String := []
  broadMappings : List String := []
  annotations : Table Value := ∅
  extra : Table Value := ∅
  deriving Inhabited, Repr

/-- A property that a class may have. -/
@[ext] structure SlotDef where
  name : String := ""
  isA : Option String := none
  mixins : List String := []
  isAbstract : Option Bool := none
  isMixin : Option Bool := none
  range : Option String := none
  domain : Option String := none
  required : Option Bool := none
  recommended : Option Bool := none
  multivalued : Option Bool := none
  identifier : Option Bool := none
  key : Option Bool := none
  designatesType : Option Bool := none
  inlined : Option Bool := none
  inlinedAsList : Option Bool := none
  slotUri : Option String := none
  pattern : Option String := none
  ifAbsent : Option String := none
  minimumValue : Option Value := none
  maximumValue : Option Value := none
  owner : Option String := none
  metadata : Metadata := {}
  deriving Inhabited, Repr

/-- A class: it applies slots, refines them by `slotUsage` and declares attributes of its own. -/
@[ext] structure ClassDef where
  name : String := ""
  isA : Option String := none
  mixins : List String := []
  isAbstract : Option Bool := none
  isMixin : Option Bool := none
  slots : List String := []
  slotUsage : Table SlotDef := ∅
  attributes : Table SlotDef := ∅
  classUri : Option String := none
  treeRoot : Option Bool := none
  metadata : Metadata := {}
  deriving Inhabited, Repr

/-- A type of literals, derived from at most one other. -/
@[ext] structure TypeDef where
  name : String := ""
  typeOf : Option String := none
  base : Option String := none
  uri : Option String := none
  representation : Option String := none
  pattern : Option String := none
  minimumValue : Option Value := none
  maximumValue : Option Value := none
  metadata : Metadata := {}
  deriving Inhabited, Repr

/-- One of the values that an enum permits. -/
@[ext] structure PermissibleValue where
  text : String := ""
  description : Option String := none
  meaning : Option String := none
  extra : Table Value := ∅
  deriving Inhabited, Repr

/-- An enumeration. -/
@[ext] structure EnumDef where
  name : String := ""
  enumUri : Option String := none
  codeSet : Option String := none
  permissibleValues : Table PermissibleValue := ∅
  metadata : Metadata := {}
  deriving Inhabited, Repr

/-- A named group of elements. -/
@[ext] structure SubsetDef where
  name : String := ""
  metadata : Metadata := {}
  deriving Inhabited, Repr

/-- The expansion of a prefix: the namespace alone, or a record with it. -/
inductive PrefixDef where
  | simple (reference : String)
  | detailed (label : Option String) (reference : String)
  deriving DecidableEq, Repr, Inhabited

/-- The namespace that a prefix stands for. -/
def PrefixDef.reference : PrefixDef → String
  | simple reference => reference
  | detailed _ reference => reference

/-- A schema document. -/
@[ext] structure Schema where
  id : String := ""
  name : String := ""
  title : Option String := none
  description : Option String := none
  version : Option String := none
  license : Option String := none
  defaultPrefix : Option String := none
  defaultRange : Option String := none
  prefixes : Table PrefixDef := ∅
  defaultCuriMaps : List String := []
  imports : List String := []
  subsets : Table SubsetDef := ∅
  types : Table TypeDef := ∅
  enums : Table EnumDef := ∅
  slots : Table SlotDef := ∅
  classes : Table ClassDef := ∅
  sourceFile : Option String := none
  extra : Table Value := ∅
  deriving Inhabited, Repr

namespace Schema

/-- A document that holds a name and the identity made of it. -/
def named (name : String) : Schema := { id := "https://example.org/" ++ name, name }

/-- The identity that elements of a document are tagged with: its id, or its name without one. -/
def identity (s : Schema) : String := if s.id.isEmpty then s.name else s.id

end Schema

/-! ### Shared views -/

/-- What has a name and metadata. -/
class Element (α : Type) where
  /-- The name. -/
  name : α → String
  /-- The same under another name. -/
  rename : String → α → α
  /-- The metadata. -/
  metadata : α → Metadata
  /-- The same with other metadata. -/
  withMetadata : Metadata → α → α

instance : Element SlotDef where
  name := SlotDef.name
  rename n d := { d with name := n }
  metadata := SlotDef.metadata
  withMetadata m d := { d with metadata := m }

instance : Element ClassDef where
  name := ClassDef.name
  rename n d := { d with name := n }
  metadata := ClassDef.metadata
  withMetadata m d := { d with metadata := m }

instance : Element TypeDef where
  name := TypeDef.name
  rename n d := { d with name := n }
  metadata := TypeDef.metadata
  withMetadata m d := { d with metadata := m }

instance : Element EnumDef where
  name := EnumDef.name
  rename n d := { d with name := n }
  metadata := EnumDef.metadata
  withMetadata m d := { d with metadata := m }

instance : Element SubsetDef where
  name := SubsetDef.name
  rename n d := { d with name := n }
  metadata := SubsetDef.metadata
  withMetadata m d := { d with metadata := m }

/-- What stands in a hierarchy of at most one parent and any number of mixins. -/
class Inheriting (α : Type) where
  /-- The parent. -/
  parent : α → Option String
  /-- The mixins, in declared order. -/
  mixins : α → List String

instance : Inheriting SlotDef := ⟨SlotDef.isA, SlotDef.mixins⟩
instance : Inheriting ClassDef := ⟨ClassDef.isA, ClassDef.mixins⟩
instance : Inheriting TypeDef := ⟨TypeDef.typeOf, fun _ => []⟩

end SlotFrame
