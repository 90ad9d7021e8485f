import SlotFrame.Schema.Definition
import SlotFrame.Document.Tree

/-! # Definitions from documents

Declared fields are read by their own types; a declared field may stand only once. Metadata and the
fields without a place of their own are read by the types that their leaves have by themselves, so
`is_a: 5` is the name `"5"` but `description: 5` is refused.

Main definitions: `Fields.of`, which sorts the entries of a record, and the `decode` of each
definition. -/

namespace SlotFrame

/-- The entries of a record under texts, of which no declared one stands twice. -/
structure Fields where
  entries : List (String × Tree)

namespace Fields

/-- Takes the entries of a record apart. -/
def of (declared : List String) (t : Tree) : Reading Fields := do
  let es ← t.fields
  match declared.find? fun d => 1 < (keysOf es).count d with
  | some d => .error (.repeated d)
  | none => return ⟨es⟩

/-- The entries whose names are not declared, each of its own type. -/
def undeclared (f : Fields) (declared : List String) : Reading Fields := do
  let es ← (f.entries.filter fun e => e.1 ∉ declared).mapM fun e => do
    return (e.1, ← e.2.settle)
  return ⟨es⟩

/-- A field, or what stands for it when it is not there. -/
def get {α : Type} (f : Fields) (name : String) (read : Tree → Reading α) (absent : α) : Reading α :=
  match lookupKey name f.entries with
  | some t => read t
  | none => .ok absent

/-- An optional field. -/
def get? {α : Type} (f : Fields) (name : String) (read : Tree → Reading α) : Reading (Option α) :=
  f.get name (Tree.optional read) none

/-- A field that holds a text, empty when it is not there. -/
def text (f : Fields) (name : String) : Reading String := f.get name Tree.asText ""

/-- A field that may hold a text. -/
def text? (f : Fields) (name : String) : Reading (Option String) := f.get? name Tree.asText

/-- A field that may hold a truth value. -/
def truth? (f : Fields) (name : String) : Reading (Option Bool) := f.get? name Tree.truth

/-- A field that holds a list of texts. -/
def texts (f : Fields) (name : String) : Reading (List String) := f.get name Tree.texts []

/-- A field that holds a table whose entries may be left out. -/
def registry {α : Type} (f : Fields) (name : String) (blank : α) (read : Tree → Reading α) :
    Reading (Table α) :=
  f.get name (Tree.registry blank read) ∅

/-- The fields that are not declared, as a table. -/
def extra (f : Fields) (declared : List String) : Reading (Table Value) := do
  let es ← (f.entries.filter fun e => e.1 ∉ declared).mapM fun e => do
    return (e.1, ← e.2.value)
  return Table.ofList es

end Fields

namespace Metadata

/-- The declared fields of metadata. -/
def declared : List String :=
  ["description", "title", "deprecated", "rank", "from_schema", "aliases", "in_subset", "see_also",
   "comments", "notes", "todos", "exact_mappings", "close_mappings", "related_mappings",
   "narrow_mappings", "broad_mappings", "annotations"]

/-- Reads metadata from fields that are settled. -/
def ofFields (f : Fields) : Reading Metadata := do
  return {
    description := ← f.text? "description"
    title := ← f.text? "title"
    deprecated := ← f.text? "deprecated"
    rank := ← f.get? "rank" Tree.whole
    fromSchema := ← f.text? "from_schema"
    aliases := ← f.texts "aliases"
    inSubset := ← f.texts "in_subset"
    seeAlso := ← f.texts "see_also"
    comments := ← f.texts "comments"
    notes := ← f.texts "notes"
    todos := ← f.texts "todos"
    exactMappings := ← f.texts "exact_mappings"
    closeMappings := ← f.texts "close_mappings"
    relatedMappings := ← f.texts "related_mappings"
    narrowMappings := ← f.texts "narrow_mappings"
    broadMappings := ← f.texts "broad_mappings"
    annotations := ← f.get "annotations" (Tree.table Tree.value) ∅
    extra := ← f.extra declared }

/-- Reads metadata that stands alone. -/
def decode (t : Tree) : Reading Metadata := do
  let f ← Fields.of declared t
  ofFields f

end Metadata

/-- Sorts the fields of a definition into its own and its metadata. -/
def Fields.ofDefinition (own : List String) (t : Tree) : Reading (Fields × Metadata) := do
  let f ← Fields.of (own ++ Metadata.declared) t
  return (f, ← Metadata.ofFields (← f.undeclared own))

namespace SlotDef

/-- The fields of a slot besides its metadata. -/
def declared : List String :=
  ["name", "is_a", "mixins", "abstract", "mixin", "range", "domain", "required", "recommended",
   "multivalued", "identifier", "key", "designates_type", "inlined", "inlined_as_list", "slot_uri",
   "pattern", "ifabsent", "minimum_value", "maximum_value", "owner"]

/-- Reads a slot. -/
def decode (t : Tree) : Reading SlotDef := do
  let (f, metadata) ← Fields.ofDefinition declared t
  return {
    name := ← f.text "name"
    isA := ← f.text? "is_a"
    mixins := ← f.texts "mixins"
    isAbstract := ← f.truth? "abstract"
    isMixin := ← f.truth? "mixin"
    range := ← f.text? "range"
    domain := ← f.text? "domain"
    required := ← f.truth? "required"
    recommended := ← f.truth? "recommended"
    multivalued := ← f.truth? "multivalued"
    identifier := ← f.truth? "identifier"
    key := ← f.truth? "key"
    designatesType := ← f.truth? "designates_type"
    inlined := ← f.truth? "inlined"
    inlinedAsList := ← f.truth? "inlined_as_list"
    slotUri := ← f.text? "slot_uri"
    pattern := ← f.text? "pattern"
    ifAbsent := ← f.text? "ifabsent"
    minimumValue := ← f.get? "minimum_value" Tree.value
    maximumValue := ← f.get? "maximum_value" Tree.value
    owner := ← f.text? "owner"
    metadata }

end SlotDef

namespace ClassDef

/-- The fields of a class besides its metadata. -/
def declared : List String :=
  ["name", "is_a", "mixins", "abstract", "mixin", "slots", "slot_usage", "attributes", "class_uri",
   "tree_root"]

/-- Reads a class. -/
def decode (t : Tree) : Reading ClassDef := do
  let (f, metadata) ← Fields.ofDefinition declared t
  return {
    name := ← f.text "name"
    isA := ← f.text? "is_a"
    mixins := ← f.texts "mixins"
    isAbstract := ← f.truth? "abstract"
    isMixin := ← f.truth? "mixin"
    slots := ← f.texts "slots"
    slotUsage := ← f.registry "slot_usage" {} SlotDef.decode
    attributes := ← f.registry "attributes" {} SlotDef.decode
    classUri := ← f.text? "class_uri"
    treeRoot := ← f.truth? "tree_root"
    metadata }

end ClassDef

namespace TypeDef

/-- The fields of a type besides its metadata. -/
def declared : List String :=
  ["name", "typeof", "base", "uri", "repr", "pattern", "minimum_value", "maximum_value"]

/-- Reads a type. -/
def decode (t : Tree) : Reading TypeDef := do
  let (f, metadata) ← Fields.ofDefinition declared t
  return {
    name := ← f.text "name"
    typeOf := ← f.text? "typeof"
    base := ← f.text? "base"
    uri := ← f.text? "uri"
    representation := ← f.text? "repr"
    pattern := ← f.text? "pattern"
    minimumValue := ← f.get? "minimum_value" Tree.value
    maximumValue := ← f.get? "maximum_value" Tree.value
    metadata }

end TypeDef

namespace PermissibleValue

/-- The declared fields of a permissible value. -/
def declared : List String := ["text", "description", "meaning"]

/-- Reads a permissible value. -/
def decode (t : Tree) : Reading PermissibleValue := do
  let f ← Fields.of declared t
  return {
    text := ← f.text "text"
    description := ← f.text? "description"
    meaning := ← f.text? "meaning"
    extra := ← (← f.undeclared declared).extra declared }

/-- Reads the permissible values of an enum: null, a list of texts, or a table whose entries may be
left out and are written as their keys where they have no text. -/
def decodeTable (t : Tree) : Reading (Table PermissibleValue) := do
  match t with
  | .null => return ∅
  | .scalar s =>
    match ← s.resolve with
    | .null => return ∅
    | _ => .error (.expected "a sequence or map of permissible values")
  | .list false xs =>
    let texts ← xs.mapM Tree.asText
    return Table.ofList (texts.map fun s => (s, { text := s }))
  | .record false _ =>
    let es ← (← t.fields).mapM fun e => do
      let v := (← e.2.optional decode).getD {}
      return (e.1, if v.text.isEmpty then { v with text := e.1 } else v)
    return Table.ofList es
  | .list true _ => .error .tagged
  | .record true _ => .error .tagged
  | _ => .error (.expected "a sequence or map of permissible values")

end PermissibleValue

namespace EnumDef

/-- The fields of an enum besides its metadata. -/
def declared : List String := ["name", "enum_uri", "code_set", "permissible_values"]

/-- Reads an enum. -/
def decode (t : Tree) : Reading EnumDef := do
  let (f, metadata) ← Fields.ofDefinition declared t
  return {
    name := ← f.text "name"
    enumUri := ← f.text? "enum_uri"
    codeSet := ← f.text? "code_set"
    permissibleValues := ← f.get "permissible_values" PermissibleValue.decodeTable ∅
    metadata }

end EnumDef

namespace SubsetDef

/-- The fields of a subset besides its metadata. -/
def declared : List String := ["name"]

/-- Reads a subset. -/
def decode (t : Tree) : Reading SubsetDef := do
  let (f, metadata) ← Fields.ofDefinition declared t
  return { name := ← f.text "name", metadata }

end SubsetDef

namespace PrefixDef

/-- The fields of a detailed prefix. -/
def declared : List String := ["prefix_prefix", "prefix_reference"]

/-- The name that a settled key stands for: its text, or the field at its position. -/
def fieldName : Key → Reading String
  | .text s => .ok s
  | .index n => .ok (declared.getD n "")
  | _ => .error (.expected "field identifier")

/-- Reads a prefix by the type that its leaves have by themselves. -/
def decode (t : Tree) : Reading PrefixDef := do
  match ← t.settle with
  | .text reference => return .simple reference
  | .record _ es =>
    let named ← es.mapM fun e => do return (← fieldName e.1, e.2)
    match declared.find? fun d => 1 < (keysOf named).count d with
    | some d => .error (.repeated d)
    | none =>
      let f : Fields := ⟨named⟩
      let label ← f.text? "prefix_prefix"
      match lookupKey "prefix_reference" named with
      | some r => return .detailed label (← r.asText)
      | none => .error (.missing "prefix_reference")
  | _ => .error (.expected "a prefix definition")

end PrefixDef

namespace Schema

/-- The declared fields of a document. -/
def declared : List String :=
  ["id", "name", "title", "description", "version", "license", "default_prefix", "default_range",
   "prefixes", "default_curi_maps", "imports", "subsets", "types", "enums", "slots", "classes",
   "source_file"]

/-- Reads a document. -/
def decode (t : Tree) : Reading Schema := do
  let f ← Fields.of declared t
  return {
    id := ← f.text "id"
    name := ← f.text "name"
    title := ← f.text? "title"
    description := ← f.text? "description"
    version := ← f.text? "version"
    license := ← f.text? "license"
    defaultPrefix := ← f.text? "default_prefix"
    defaultRange := ← f.text? "default_range"
    prefixes := ← f.get "prefixes" (Tree.table PrefixDef.decode) ∅
    defaultCuriMaps := ← f.texts "default_curi_maps"
    imports := ← f.texts "imports"
    subsets := ← f.registry "subsets" {} SubsetDef.decode
    types := ← f.registry "types" {} TypeDef.decode
    enums := ← f.registry "enums" {} EnumDef.decode
    slots := ← f.registry "slots" {} SlotDef.decode
    classes := ← f.registry "classes" {} ClassDef.decode
    sourceFile := ← f.text? "source_file"
    extra := ← (← f.undeclared declared).extra declared }

end Schema

end SlotFrame
