import SlotFrame.Yaml.Token

/-! # Nodes of a YAML document

Tokens are put together to a node: a scalar, a list, a record, or an alias of a node with an anchor.
A text holds at most one document, and an empty one stands for a blank scalar.

Main definition: `Node.ofTokens`. -/

namespace SlotFrame.Yaml

/-- A node of a document. Anchors are numbered in order; a name that is used again takes the number
of names known by then. -/
inductive Node where
  | reuse (anchor : Nat)
  | scalar (anchor : Option Nat) (s : Scalar)
  | list (anchor : Option Nat) (tagged : Bool) (items : List Node)
  | record (anchor : Option Nat) (tagged : Bool) (entries : List (Node × Node))
  deriving Inhabited

/-- What is left to put together: the tokens, the meaning of tag handles, the anchors known so far,
and the number of pieces put together. -/
structure Assembly where
  tokens : List Token
  handles : List (String × String) := []
  anchors : List (String × Nat) := []
  pieces : Nat := 0

/-- A step of putting a document together. -/
abbrev Assemble := StateT Assembly Outcome

namespace Assemble

/-- Gives up. -/
def fault {α : Type} (message : String) : Assemble α := fun _ => failWith message

/-- The next token. -/
def peek : Assemble (Option Token) := do return (← get).tokens.head?

/-- Drops the next token. -/
def skip : Assemble Unit := modify fun a => { a with tokens := a.tokens.drop 1 }

/-- Counts pieces. -/
def count (n : Nat) : Assemble Unit := modify fun a => { a with pieces := a.pieces + n }

/-- Whether the next token is one of the given ones; the end of the text counts as none. -/
def nextIn (ts : List Token) : Assemble Bool := do
  match ← peek with
  | some t => return ts.contains t
  | none => return false

/-- The number of an anchor that is set now. -/
def setAnchor (name : Option String) : Assemble (Option Nat) := do
  match name with
  | none => return none
  | some n =>
    let a ← get
    let number := a.anchors.length
    set { a with anchors := putKey n number a.anchors }
    return some number

/-- The whole text of a tag. -/
def resolveTag (handle suffix : String) : Assemble String := do
  if handle.isEmpty then return suffix
  else match lookupKey handle (← get).handles with
    | some uri => return uri ++ suffix
    | none => fault "found undefined tag handle"

end Assemble

/-- The part of a scalar's tag that decides its type; a lone exclamation mark in front of a text
decides nothing. -/
def scalarTag (tag : Option String) : ScalarTag :=
  match tag with
  | none => .absent
  | some t =>
    if t = "!" ∨ t.isEmpty then .absent
    else if t = "tag:yaml.org,2002:bool" then .bool
    else if t = "tag:yaml.org,2002:int" then .int
    else if t = "tag:yaml.org,2002:float" then .float
    else if t = "tag:yaml.org,2002:null" then .null
    else if t.startsWith "!" then .application
    else .foreign

/-- Whether a tag on a list or a record is one of an application. -/
def isApplicationTag (tag : Option String) : Bool := tag.any fun t => t.startsWith "!"

/-- A scalar without content. -/
def blankScalar : Scalar := ⟨"", .plain, .absent⟩

open Assemble

/-- An empty scalar in the place of a node. -/
def blankNode : Assemble Node := do
  count 1
  return .scalar none blankScalar

/-- The anchor and the tag in front of a node, in either order. -/
def properties : Assemble (Option String × Option String) := do
  match ← peek with
  | some (.anchor n) =>
    skip
    match ← peek with
    | some (.tag h s) =>
      skip
      return (some n, some (← resolveTag h s))
    | _ => return (some n, none)
  | some (.tag h s) =>
    skip
    let anchor ← match ← peek with
      | some (.anchor n) => do skip; pure (some n)
      | _ => pure none
    return (anchor, some (← resolveTag h s))
  | _ => return (none, none)

mutual

/-- A node. Blocks may begin only where `block` holds, a list without indentation only where
`indentless` holds. -/
def node (block indentless : Bool) : Nat → Assemble Node
  | 0 => fault "did not find expected node content"
  | fuel + 1 => do
    match ← peek with
    | some (.reuse n) =>
      skip
      count 1
      match lookupKey n (← get).anchors with
      | some number => return .reuse number
      | none => fault "unknown anchor"
    | _ =>
      let (name, tag) ← properties
      let tagged := isApplicationTag tag
      match ← peek with
      | some .entry =>
        if indentless then
          let anchor ← setAnchor name
          count 2
          return .list anchor tagged (← indentlessItems fuel)
        else bare block name tag
      | some (.scalar content style) =>
        skip
        let anchor ← setAnchor name
        count 1
        return .scalar anchor ⟨content, style, scalarTag tag⟩
      | some .flowSequence =>
        skip
        let anchor ← setAnchor name
        count 2
        return .list anchor tagged (← flowItems true fuel)
      | some .flowMapping =>
        skip
        let anchor ← setAnchor name
        count 2
        return .record anchor tagged (← flowEntries true fuel)
      | some .blockSequence =>
        if block then
          skip
          let anchor ← setAnchor name
          count 2
          return .list anchor tagged (← blockItems fuel)
        else bare block name tag
      | some .blockMapping =>
        if block then
          skip
          let anchor ← setAnchor name
          count 2
          return .record anchor tagged (← blockEntries fuel)
        else bare block name tag
      | _ => bare block name tag

/-- A node that consists of its anchor or tag alone. -/
def bare (block : Bool) (name tag : Option String) : Assemble Node := do
  if name.isSome || tag.isSome then
    let anchor ← setAnchor name
    count 1
    return .scalar anchor ⟨"", .plain, if tag = some "!" then .application else scalarTag tag⟩
  else fault (if block then "while parsing a block node" else "while parsing a flow node")

/-- The members of a block list. -/
def blockItems : Nat → Assemble (List Node)
  | 0 => fault "did not find expected '-' indicator"
  | fuel + 1 => do
    match ← peek with
    | some .entry =>
      skip
      let n ← if ← nextIn [.entry, .blockEnd] then blankNode else node true false fuel
      return n :: (← blockItems fuel)
    | some .blockEnd => do skip; return []
    | _ => fault "did not find expected '-' indicator"

/-- The members of a list that stands at the indentation of its key. -/
def indentlessItems : Nat → Assemble (List Node)
  | 0 => fault "did not find expected '-' indicator"
  | fuel + 1 => do
    match ← peek with
    | some .entry =>
      skip
      let n ← if ← nextIn [.entry, .key, .value, .blockEnd] then blankNode else node true false fuel
      return n :: (← indentlessItems fuel)
    | _ => return []

/-- The entries of a block record. -/
def blockEntries : Nat → Assemble (List (Node × Node))
  | 0 => fault "did not find expected key"
  | fuel + 1 => do
    match ← peek with
    | some .key =>
      skip
      let k ← if ← nextIn [.key, .value, .blockEnd] then blankNode else node true true fuel
      let v ← blockValue fuel
      return (k, v) :: (← blockEntries fuel)
    | some .blockEnd => do skip; return []
    | _ => fault "did not find expected key"

/-- The value after a key of a block record. -/
def blockValue : Nat → Assemble Node
  | 0 => fault "did not find expected key"
  | fuel + 1 => do
    match ← peek with
    | some .value =>
      skip
      if ← nextIn [.key, .value, .blockEnd] then blankNode else node true true fuel
    | _ => blankNode

/-- The members of a flow list; a pair among them is a record of its own. -/
def flowItems (first : Bool) : Nat → Assemble (List Node)
  | 0 => fault "did not find expected ',' or ']'"
  | fuel + 1 => do
    match ← peek with
    | some .flowSequenceEnd => do skip; return []
    | t =>
      if ¬ first then
        if t = some .comma then skip else fault "did not find expected ',' or ']'"
      match ← peek with
      | some .key =>
        skip
        count 2
        let pair ← flowPair fuel
        return .record none false [pair] :: (← flowItems false fuel)
      | some .flowSequenceEnd => do skip; return []
      | _ =>
        let n ← node false false fuel
        return n :: (← flowItems false fuel)

/-- A pair among the members of a flow list. -/
def flowPair : Nat → Assemble (Node × Node)
  | 0 => fault "did not find expected ',' or ']'"
  | fuel + 1 => do
    let k ← if ← nextIn [.value, .comma, .flowSequenceEnd] then do skip; blankNode
      else node false false fuel
    match ← peek with
    | some .value =>
      skip
      let v ← if ← nextIn [.comma, .flowSequenceEnd] then blankNode else node false false fuel
      return (k, v)
    | _ => return (k, ← blankNode)

/-- The entries of a flow record; a member without a colon is a key alone. -/
def flowEntries (first : Bool) : Nat → Assemble (List (Node × Node))
  | 0 => fault "did not find expected ',' or closing brace"
  | fuel + 1 => do
    match ← peek with
    | some .flowMappingEnd => do skip; return []
    | t =>
      if ¬ first then
        if t = some .comma then skip else fault "did not find expected ',' or closing brace"
      match ← peek with
      | some .key =>
        skip
        let k ← if ← nextIn [.value, .comma, .flowMappingEnd] then blankNode else node false false fuel
        let v ← flowValue fuel
        return (k, v) :: (← flowEntries false fuel)
      | some .flowMappingEnd => do skip; return []
      | _ =>
        let k ← node false false fuel
        let v ← blankNode
        return (k, v) :: (← flowEntries false fuel)

/-- The value after a key of a flow record. -/
def flowValue : Nat → Assemble Node
  | 0 => fault "did not find expected ',' or closing brace"
  | fuel + 1 => do
    match ← peek with
    | some .value =>
      skip
      if ← nextIn [.comma, .flowMappingEnd] then blankNode else node false false fuel
    | _ => blankNode

end

/-- The directives in front of a document: at most one version, and handles that differ. -/
def directives : Nat → Bool → Assemble Unit
  | 0, _ => return
  | fuel + 1, versioned => do
    match ← peek with
    | some (.version major minor) =>
      if versioned then fault "found duplicate %YAML directive"
      if major ≠ 1 ∨ (minor ≠ 1 ∧ minor ≠ 2) then fault "found incompatible YAML document"
      skip
      directives fuel true
    | some (.tagHandle handle uri) =>
      let a ← get
      if (lookupKey handle a.handles).isSome then fault "found duplicate %TAG directive"
      skip
      modify fun a => { a with handles := putKey handle uri a.handles }
      directives fuel versioned
    | _ => return

/-- The handles that need no directive. -/
def standardHandles : List (String × String) := [("!", "!"), ("!!", "tag:yaml.org,2002:")]

/-- The only document of a text. -/
def document : Assemble Node := do
  let fuel := 4 * (← get).tokens.length + 4
  let addHandles : Assemble Unit := modify fun a => { a with
    handles := a.handles ++ standardHandles.filter fun h => (lookupKey h.1 a.handles).isNone }
  let content : Assemble Node := do
    match ← peek with
    | none => blankNode
    | some .documentEnd => blankNode
    | some .documentStart => blankNode
    | some (.version ..) => blankNode
    | some (.tagHandle ..) => blankNode
    | some _ => node true false fuel
  let n ← match ← peek with
    | none => blankNode
    | some .documentStart => do addHandles; skip; content
    | some (.version ..) | some (.tagHandle ..) => do
      directives fuel false
      addHandles
      match ← peek with
      | some .documentStart => do skip; content
      | _ => fault "did not find expected <document start>"
    | some _ => do addHandles; node true false fuel
  modify fun a => { a with tokens := a.tokens.dropWhile (· = .documentEnd) }
  match ← peek with
  | none => return n
  | some _ => fault "expected a single document"

/-- The node of a text's only document, and the number of its pieces. -/
def Node.ofTokens (tokens : List Token) : Outcome (Node × Nat) := do
  let (n, a) ← document.run { tokens }
  return (n, a.pieces)

end SlotFrame.Yaml
