import SlotFrame.Yaml.ScalarText

/-! # Tokens of a YAML text

A text is cut into tokens. Indentation is turned into tokens that open and close blocks, and a key
is marked only when the colon after it is met: until then a possible key is remembered for every
open collection, as long as it stays on one line and within 1024 characters.

Main definition: `Token.scan`. -/

namespace SlotFrame.Yaml

/-- A token. The beginning and the end of the text carry none. -/
inductive Token where
  | version (major minor : Nat)
  | tagHandle (handle uri : String)
  | documentStart
  | documentEnd
  | blockSequence
  | blockMapping
  | blockEnd
  | flowSequence
  | flowSequenceEnd
  | flowMapping
  | flowMappingEnd
  | entry
  | comma
  | key
  | value
  | reuse (name : String)
  | anchor (name : String)
  | tag (handle suffix : String)
  | scalar (content : String) (style : ScalarStyle)
  deriving DecidableEq, Repr

/-- A token that may turn out to be a key. -/
structure PossibleKey where
  possible : Bool := false
  /-- Stands at the indentation of its block, where only a key may. -/
  required : Bool := false
  number : Nat := 0
  index : Nat := 0
  line : Nat := 0
  column : Nat := 0

/-- The state of scanning: tokens are kept last first, possible keys and indentations innermost
first. -/
structure Scan where
  cursor : Cursor
  tokens : List Token := []
  produced : Nat := 0
  indent : Int := -1
  indents : List Int := []
  /-- The number of open flow collections. -/
  flow : Nat := 0
  keys : List PossibleKey := [{}]
  keyAllowed : Bool := true

namespace Scan

/-- Adds a token. -/
def push (s : Scan) (t : Token) : Scan :=
  { s with tokens := t :: s.tokens, produced := s.produced + 1 }

/-- Puts a token in front of the one with the given number. -/
def insertAt (s : Scan) (number : Nat) (t : Token) : Scan :=
  let after := s.produced - number
  { s with
    tokens := s.tokens.take after ++ t :: s.tokens.drop after
    produced := s.produced + 1 }

/-- The possible key of the innermost collection. -/
def topKey (s : Scan) : PossibleKey := s.keys.headD {}

/-- Replaces the possible key of the innermost collection. -/
def setTopKey (s : Scan) (k : PossibleKey) : Scan := { s with keys := k :: s.keys.drop 1 }

/-- Gives up the possible key of the innermost collection; a required one must not be given up. -/
def dropKey (s : Scan) : Outcome Scan :=
  if s.topKey.possible ∧ s.topKey.required then failWith "could not find expected ':'"
  else .ok (s.setTopKey { s.topKey with possible := false })

/-- Remembers the token to come as a possible key. -/
def saveKey (s : Scan) : Outcome Scan := do
  if s.keyAllowed then
    let s ← s.dropKey
    let cur := s.cursor
    return s.setTopKey
      { possible := true
        required := s.flow = 0 ∧ s.indent = cur.column
        number := s.produced, index := cur.index, line := cur.line, column := cur.column }
  else return s

/-- Closes the blocks that stand deeper than a column. -/
def unroll (column : Int) : Nat → Scan → Scan
  | 0, s => s
  | fuel + 1, s =>
    if s.flow = 0 ∧ column < s.indent then
      unroll column fuel
        { s.push .blockEnd with indent := s.indents.headD (-1), indents := s.indents.drop 1 }
    else s

/-- Closes the blocks that stand deeper than a column. -/
def unrollTo (s : Scan) (column : Int) : Scan := unroll column (s.indents.length + 1) s

/-- Opens a block if the column is deeper than the current one, in front of a token or at the end. -/
def roll (s : Scan) (column : Nat) (number : Option Nat) (t : Token) : Scan :=
  if s.flow = 0 ∧ s.indent < column then
    let s := { s with indents := s.indent :: s.indents, indent := column }
    match number with
    | some n => s.insertAt n t
    | none => s.push t
  else s

/-- Moves on. -/
def advanceBy (s : Scan) (n : Nat) : Scan := { s with cursor := s.cursor.advanceBy n }

/-- Skips blanks, comments and line ends up to the next token. Tabs count as blanks where no key may
begin, and a mark of the byte order may stand at the start of a line. -/
def skipToToken : Nat → Scan → Scan
  | 0, s => s
  | fuel + 1, s =>
    let cur := if s.cursor.column = 0 ∧ s.cursor.looksAt 0 '\ufeff' then s.cursor.advance else s.cursor
    let cur := cur.skipWhile fun c => c = ' ' || (c = '\t' && (s.flow ≠ 0 || ! s.keyAllowed))
    let cur := if cur.looksAt 0 '#' then cur.skipWhile (fun c => ! isBreak c) else cur
    if cur.breakAt 0 then
      skipToToken fuel { s with cursor := cur.skipLine, keyAllowed := s.keyAllowed || s.flow = 0 }
    else { s with cursor := cur }

/-- The number of a version directive. -/
def versionNumber (cur : Cursor) : Outcome (Nat × Cursor) :=
  let digits := cur.takeWhile Char.isDigit
  if digits.isEmpty then failWith "did not find expected version number"
  else if 9 < digits.length then failWith "found extremely long version number"
  else .ok (ScalarValue.ofDigits digits, cur.advanceBy digits.length)

/-- A directive: the version of the format or the meaning of a tag handle. -/
def directive (s : Scan) : Outcome Scan := do
  let s := s.unrollTo (-1)
  let s ← s.dropKey
  let cur := s.cursor.advance
  let name := cur.takeWhile isWordChar
  let cur := cur.advanceBy name.length
  if name.isEmpty then failWith "could not find expected directive name"
  if ¬ cur.spaceAt 0 then failWith "found unexpected non-alphabetical character"
  let (token, cur) ←
    if name = "YAML".toList then do
      let (major, cur) ← versionNumber (cur.skipWhile isBlank)
      if ¬ cur.looksAt 0 '.' then failWith "did not find expected digit or '.' character"
      let (minor, cur) ← versionNumber cur.advance
      pure (Token.version major minor, cur)
    else if name = "TAG".toList then do
      let (handle, cur) ← tagHandle true (cur.skipWhile isBlank)
      if ¬ cur.blankAt 0 then failWith "did not find expected whitespace"
      let (uri, cur) ← tagRest true [] (cur.skipWhile isBlank)
      if ¬ cur.spaceAt 0 then failWith "did not find expected whitespace or line break"
      pure (Token.tagHandle (String.ofList handle) (String.ofList uri), cur)
    else failWith "found unknown directive name"
  let cur := cur.skipWhile isBlank
  let cur := if cur.looksAt 0 '#' then cur.skipWhile (fun c => ! isBreak c) else cur
  if ¬ cur.breakOrEndAt 0 then failWith "did not find expected comment or line break"
  return { s.push token with cursor := cur.skipLine, keyAllowed := false }

/-- A line that begins or ends a document. -/
def documentMark (s : Scan) (t : Token) : Outcome Scan := do
  let s ← (s.unrollTo (-1)).dropKey
  return { (s.push t).advanceBy 3 with keyAllowed := false }

/-- Opens a flow collection. -/
def openFlow (s : Scan) (t : Token) : Outcome Scan := do
  let s ← s.saveKey
  return { (s.push t).advanceBy 1 with keys := {} :: s.keys, flow := s.flow + 1, keyAllowed := true }

/-- Closes a flow collection. -/
def closeFlow (s : Scan) (t : Token) : Outcome Scan := do
  let s ← s.dropKey
  let keys := if s.flow = 0 then s.keys else s.keys.drop 1
  return { (s.push t).advanceBy 1 with keys, flow := s.flow - 1, keyAllowed := false }

/-- A comma between the members of a flow collection. -/
def comma (s : Scan) : Outcome Scan := do
  let s ← s.dropKey
  return { (s.push .comma).advanceBy 1 with keyAllowed := true }

/-- A hyphen in front of a member of a block sequence. -/
def entry (s : Scan) : Outcome Scan := do
  if s.flow = 0 ∧ ¬ s.keyAllowed then
    failWith "block sequence entries are not allowed in this context"
  let s := s.roll s.cursor.column none .blockSequence
  let s ← s.dropKey
  return { (s.push .entry).advanceBy 1 with keyAllowed := true }

/-- A question mark in front of a key. -/
def explicitKey (s : Scan) : Outcome Scan := do
  if s.flow = 0 ∧ ¬ s.keyAllowed then failWith "mapping keys are not allowed in this context"
  let s := s.roll s.cursor.column none .blockMapping
  let s ← s.dropKey
  return { (s.push .key).advanceBy 1 with keyAllowed := s.flow = 0 }

/-- Whether a possible key still is one: on the line that has been reached and near enough. -/
def keyInReach (s : Scan) (k : PossibleKey) : Bool :=
  k.possible && k.line = s.cursor.line && s.cursor.index ≤ k.index + 1024

/-- A colon after a key. -/
def value (s : Scan) : Outcome Scan := do
  let k := s.topKey
  if s.keyInReach k then
    let s := s.insertAt k.number .key
    let s := s.roll k.column (some k.number) .blockMapping
    let s := s.setTopKey { k with possible := false }
    return { (s.push .value).advanceBy 1 with keyAllowed := false }
  else
    if k.possible ∧ k.required then failWith "could not find expected ':'"
    if s.flow = 0 ∧ ¬ s.keyAllowed then failWith "mapping values are not allowed in this context"
    let s := s.setTopKey { k with possible := false }
    let s := s.roll s.cursor.column none .blockMapping
    return { (s.push .value).advanceBy 1 with keyAllowed := s.flow = 0 }

/-- A token whose text was read up to a cursor. -/
def finish (s : Scan) (t : Token) (cur : Cursor) (keyAllowed : Bool) : Scan :=
  { s.push t with cursor := cur, keyAllowed }

/-- An anchor or an alias. -/
def name (s : Scan) (make : String → Token) : Outcome Scan := do
  let s ← s.saveKey
  let (n, cur) ← anchorName s.cursor.advance
  return s.finish (make n) cur false

/-- A tag. -/
def tag (s : Scan) : Outcome Scan := do
  let s ← s.saveKey
  let (handle, suffix, cur) ← tagParts (s.flow ≠ 0) s.cursor
  return s.finish (.tag handle suffix) cur false

/-- A block scalar. -/
def block (s : Scan) (literal : Bool) : Outcome Scan := do
  let s ← s.dropKey
  let (cs, cur) ← blockScalar literal s.indent s.cursor.advance
  return s.finish (.scalar (String.ofList cs) (if literal then .literal else .folded)) cur true

/-- A quoted scalar. -/
def quoted (s : Scan) (single : Bool) : Outcome Scan := do
  let s ← s.saveKey
  let cur := s.cursor.advance
  let (cs, cur) ← quotedScalar single cur.bound [] cur
  return s.finish (.scalar (String.ofList cs) .quoted) cur false

/-- A plain scalar. A key may follow on another line. -/
def plain (s : Scan) : Outcome Scan := do
  let s ← s.saveKey
  let (cs, broken, cur) ←
    plainScalar (s.flow ≠ 0) (s.indent + 1).toNat s.cursor.bound [] {} s.cursor
  return s.finish (.scalar (String.ofList cs) .plain) cur broken

/-- Whether a plain scalar may begin with the next character. -/
def startsPlain (s : Scan) (c : Char) : Bool :=
  let cur := s.cursor
  let reserved := cur.spaceAt 0 || c ∈ ['-', '?', ':', ',', '[', ']', '\x7b', '\x7d', '#', '&', '*', '!',
    '|', '>', '\'', '"', '%', '@', '\x60']
  ! reserved || (c = '-' && ! cur.blankAt 1) ||
  (s.flow = 0 && (c = '?' || c = ':') && ! cur.spaceAt 1)

/-- The next token. -/
def step (s : Scan) (c : Char) : Outcome Scan :=
  let cur := s.cursor
  if cur.column = 0 ∧ c = '%' then s.directive
  else match cur.documentMark? with
    | some '-' => s.documentMark .documentStart
    | some _ => s.documentMark .documentEnd
    | none =>
      if c = '[' then s.openFlow .flowSequence
      else if c = '\x7b' then s.openFlow .flowMapping
      else if c = ']' then s.closeFlow .flowSequenceEnd
      else if c = '\x7d' then s.closeFlow .flowMappingEnd
      else if c = ',' then s.comma
      else if c = '-' ∧ cur.spaceAt 1 then s.entry
      else if c = '?' ∧ (s.flow ≠ 0 ∨ cur.spaceAt 1) then s.explicitKey
      else if c = ':' ∧ (s.flow ≠ 0 ∨ cur.spaceAt 1) then s.value
      else if c = '*' then s.name .reuse
      else if c = '&' then s.name .anchor
      else if c = '!' then s.tag
      else if c = '|' ∧ s.flow = 0 then s.block true
      else if c = '>' ∧ s.flow = 0 then s.block false
      else if c = '\'' then s.quoted true
      else if c = '"' then s.quoted false
      else if s.startsPlain c then s.plain
      else failWith "found character that cannot start any token"

/-- Scans to the end of the text, where all blocks are closed. -/
def run : Nat → Scan → Outcome (List Token)
  | 0, s => .ok s.tokens.reverse
  | fuel + 1, s => do
    let s := s.skipToToken s.cursor.bound
    let s := s.unrollTo s.cursor.column
    match s.cursor.peek with
    | none =>
      let s ← (s.unrollTo (-1)).dropKey
      return s.tokens.reverse
    | some c => run fuel (← s.step c)

end Scan

/-- The tokens of a text. A mark of the byte order in front of it is skipped. -/
def Token.scan (text : String) : Outcome (List Token) :=
  let chars := match text.toList with
    | '\uFEFF' :: rest => rest
    | cs => cs
  if chars.all isAllowed then Scan.run (chars.length + 1) { cursor := ⟨chars, 0, 0, 0, chars.length + 1⟩ }
  else failWith "control characters are not allowed"

end SlotFrame.Yaml
