import SlotFrame.Yaml.Cursor

/-! # Scalars, anchors and tags of a YAML text

The content of a scalar as its style reads it: plain scalars and quoted ones fold the ends of lines
into spaces, literal blocks keep them, folded blocks do both.

Main definitions: `Yaml.plainScalar`, `Yaml.quotedScalar`, `Yaml.blockScalar`, `Yaml.anchorName`,
`Yaml.tagParts`. -/

namespace SlotFrame.Yaml

/-- The outcome of reading a part of a text. -/
abbrev Outcome := Except Fault

/-- A fault with its wording. -/
def failWith {α : Type} (message : String) : Outcome α := .error ⟨message⟩

/-! ### Blanks between the words of a flow scalar -/

/-- Blanks and line ends between two words: the blanks before the first line end, that line end, and
the ones after it. -/
structure Gap where
  blanks : List Char := []
  first : List Char := []
  others : List Char := []
  /-- Whether a line has ended. -/
  broken : Bool := false

/-- What a gap reads as: the blanks themselves, or a line end folded into a space unless further
ones follow it. -/
def Gap.fold (g : Gap) : List Char :=
  if ¬ g.broken then g.blanks
  else match g.first with
    | '\n' :: _ => if g.others.isEmpty then [' '] else g.others
    | _ => g.first ++ g.others

/-- Reads a gap. With `floor`, a tab before that column of a later line is a fault. -/
def readGap (floor : Option Nat) : Nat → Gap → Cursor → Outcome (Gap × Cursor)
  | 0, g, cur => .ok (g, cur)
  | fuel + 1, g, cur =>
    match cur.peek with
    | some c =>
      if isBlank c then
        if g.broken ∧ c = '\t' ∧ floor.any (cur.column < ·) then
          failWith "found a tab character that violates indentation"
        else readGap floor fuel (if g.broken then g else { g with blanks := g.blanks ++ [c] }) cur.advance
      else if isBreak c then
        let g := if g.broken then { g with others := g.others ++ cur.lineEnd }
          else { g with blanks := [], first := cur.lineEnd, broken := true }
        readGap floor fuel g cur.skipLine
      else .ok (g, cur)
    | none => .ok (g, cur)

/-! ### Plain scalars -/

/-- Whether a plain scalar ends before the next character. -/
def endsPlain (inFlow : Bool) (cur : Cursor) : Bool :=
  match cur.peek with
  | none => true
  | some c =>
    isBlank c || isBreak c || (c = ':' && cur.spaceAt 1) ||
    (inFlow && (c = ',' || c = '[' || c = ']' || c = '\x7b' || c = '\x7d'))

/-- Whether a colon of a plain scalar stands where a flow collection forbids it. -/
def strayColon (cur : Cursor) : Bool :=
  cur.looksAt 0 ':' &&
  (match cur.peekAt 1 with
    | some c => c = ',' || c = '?' || c = '[' || c = ']' || c = '\x7b' || c = '\x7d'
    | none => false)

/-- A run of characters of a plain scalar without blanks. -/
def plainWord (inFlow : Bool) : Nat → List Char → Cursor → Outcome (List Char × Cursor)
  | 0, acc, cur => .ok (acc, cur)
  | fuel + 1, acc, cur =>
    if inFlow ∧ strayColon cur then failWith "found unexpected ':'"
    else if endsPlain inFlow cur then .ok (acc, cur)
    else match cur.peek with
      | some c => plainWord inFlow fuel (c :: acc) cur.advance
      | none => .ok (acc, cur)

/-- A plain scalar: its content, whether a line end follows it, and where it ends. `acc` holds the
content read so far, last character first, and `gap` what separates it from the next word. -/
def plainScalar (inFlow : Bool) (floor : Nat) :
    Nat → List Char → Gap → Cursor → Outcome (List Char × Bool × Cursor)
  | 0, acc, gap, cur => .ok (acc.reverse, gap.broken, cur)
  | fuel + 1, acc, gap, cur =>
    if cur.documentMark?.isSome ∨ cur.looksAt 0 '#' then .ok (acc.reverse, gap.broken, cur)
    else do
      let (word, cur') ← plainWord inFlow cur.bound [] cur
      let (acc, gap) := if word.isEmpty then (acc, gap) else (word ++ gap.fold.reverse ++ acc, {})
      match cur'.peek with
      | some c =>
        if isBlank c ∨ isBreak c then
          let (gap, cur'') ← readGap (some floor) cur'.bound gap cur'
          if ¬ inFlow ∧ cur''.column < floor then .ok (acc.reverse, gap.broken, cur'')
          else plainScalar inFlow floor fuel acc gap cur''
        else .ok (acc.reverse, gap.broken, cur')
      | none => .ok (acc.reverse, gap.broken, cur')

/-! ### Quoted scalars -/

/-- The character of an escape of one letter. -/
def letterEscape? : Char → Option Char
  | '0' => some '\x00'
  | 'a' => some '\x07'
  | 'b' => some '\x08'
  | 't' => some '\t'
  | '\t' => some '\t'
  | 'n' => some '\n'
  | 'v' => some '\x0b'
  | 'f' => some '\x0c'
  | 'r' => some '\r'
  | 'e' => some '\x1b'
  | ' ' => some ' '
  | '"' => some '"'
  | '/' => some '/'
  | '\\' => some '\\'
  | 'N' => some '\u0085'
  | '_' => some '\u00a0'
  | 'L' => some '\u2028'
  | 'P' => some '\u2029'
  | _ => none

/-- The number of digits of a numeric escape. -/
def escapeWidth? : Char → Option Nat
  | 'x' => some 2
  | 'u' => some 4
  | 'U' => some 8
  | _ => none

/-- A run of characters of a quoted scalar without blanks. The flag tells that an escaped line end
stopped it. -/
def quotedWord (single : Bool) : Nat → List Char → Cursor → Outcome (List Char × Bool × Cursor)
  | 0, acc, cur => .ok (acc, false, cur)
  | fuel + 1, acc, cur =>
    if cur.spaceAt 0 then .ok (acc, false, cur)
    else match cur.peek with
      | none => .ok (acc, false, cur)
      | some c =>
        if single then
          if c = '\'' then
            if cur.looksAt 1 '\'' then quotedWord single fuel ('\'' :: acc) (cur.advanceBy 2)
            else .ok (acc, false, cur)
          else quotedWord single fuel (c :: acc) cur.advance
        else if c = '"' then .ok (acc, false, cur)
        else if c = '\\' then
          if cur.breakAt 1 then .ok (acc, true, cur.advance.skipLine)
          else match cur.peekAt 1 with
            | none => failWith "found unknown escape character"
            | some e =>
              match letterEscape? e, escapeWidth? e with
              | some d, _ => quotedWord single fuel (d :: acc) (cur.advanceBy 2)
              | none, some width =>
                match ScalarValue.natural? 16 ((cur.rest.drop 2).take width) with
                | some n =>
                  if (cur.rest.drop 2).length < width then
                    failWith "did not find expected hexdecimal number"
                  else if (0xD800 ≤ n ∧ n ≤ 0xDFFF) ∨ 0x10FFFF < n then
                    failWith "found invalid Unicode character escape code"
                  else quotedWord single fuel (Char.ofNat n :: acc) (cur.advanceBy (2 + width))
                | none => failWith "did not find expected hexdecimal number"
              | none, none => failWith "found unknown escape character"
        else quotedWord single fuel (c :: acc) cur.advance

/-- A quoted scalar after its opening quote. -/
def quotedScalar (single : Bool) : Nat → List Char → Cursor → Outcome (List Char × Cursor)
  | 0, _, _ => failWith "found unexpected end of stream"
  | fuel + 1, acc, cur =>
    if cur.documentMark?.isSome then failWith "found unexpected document indicator"
    else if cur.rest.isEmpty then failWith "found unexpected end of stream"
    else do
      let (word, escaped, cur) ← quotedWord single cur.bound [] cur
      let acc := word ++ acc
      if cur.looksAt 0 (if single then '\'' else '"') then return (acc.reverse, cur.advance)
      let (gap, cur) ← readGap none cur.bound { broken := escaped } cur
      quotedScalar single fuel (gap.fold.reverse ++ acc) cur

/-! ### Block scalars -/

/-- What becomes of the line ends at the end of a block. -/
inductive Chomping where
  | strip
  | clip
  | keep
  deriving DecidableEq

/-- The chomping that a mark stands for. -/
def chomping? : Char → Option Chomping
  | '+' => some .keep
  | '-' => some .strip
  | _ => none

/-- The header of a block: how it is chomped and how much deeper it is said to stand. -/
def blockHeader (cur : Cursor) : Outcome (Chomping × Option Nat × Cursor) :=
  let depth (cur : Cursor) : Outcome (Option Nat × Cursor) :=
    match cur.peek with
    | some c =>
      if c = '0' then failWith "found an indentation indicator equal to 0"
      else if c.isDigit then .ok (some (c.toNat - '0'.toNat), cur.advance)
      else .ok (none, cur)
    | none => .ok (none, cur)
  match cur.peek.bind chomping? with
  | some ch => do
    let (n, cur) ← depth cur.advance
    return (ch, n, cur)
  | none => do
    let (n, cur) ← depth cur
    match n with
    | none => return (.clip, none, cur)
    | some _ =>
      match cur.peek.bind chomping? with
      | some ch => return (ch, n, cur.advance)
      | none => return (.clip, n, cur)

/-- Skips indentation and empty lines; gives the line ends, the widest indentation seen, and the
place. An indentation of zero is still to be found. -/
def blockBreaks (indent : Nat) : Nat → List Char → Nat → Cursor → Outcome (List Char × Nat × Cursor)
  | 0, ends, widest, cur => .ok (ends, widest, cur)
  | fuel + 1, ends, widest, cur =>
    let spaces := (cur.takeWhile (· = ' ')).length
    let skipped := if indent = 0 then spaces else min spaces (indent - cur.column)
    let cur := cur.advanceBy skipped
    let widest := max widest cur.column
    if (indent = 0 ∨ cur.column < indent) ∧ cur.looksAt 0 '\t' then
      failWith "found a tab character where an indentation space is expected"
    else if cur.breakAt 0 then
      blockBreaks indent fuel (ends ++ cur.lineEnd) widest cur.skipLine
    else .ok (ends, widest, cur)

/-- The state of reading a block: the content, last character first, the line end after it, the ends
of the empty lines after that, and whether its last line began with a blank. -/
structure Block where
  content : List Char := []
  lineEnd : List Char := []
  empty : List Char := []
  blankLine : Bool := false

/-- The lines of a block that stand at its indentation. -/
def blockLines (literal : Bool) (indent : Nat) : Nat → Block → Cursor → Outcome (Block × Cursor)
  | 0, b, cur => .ok (b, cur)
  | fuel + 1, b, cur =>
    if cur.column ≠ indent ∨ cur.rest.isEmpty then .ok (b, cur)
    else do
      let startsBlank := cur.blankAt 0
      let joined :=
        if ¬ literal ∧ b.lineEnd.head? = some '\n' ∧ ¬ b.blankLine ∧ ¬ startsBlank then
          if b.empty.isEmpty then [' '] else b.empty
        else b.lineEnd ++ b.empty
      let text := cur.takeWhile (fun c => ! isBreak c)
      let content := text.reverse ++ joined.reverse ++ b.content
      let cur := cur.advanceBy text.length
      let ending := cur.lineEnd
      let (empty, _, cur) ← blockBreaks indent cur.bound [] 0 cur.skipLine
      blockLines literal indent fuel ⟨content, ending, empty, startsBlank⟩ cur

/-- A block scalar after its indicator; `parent` is the indentation of the block around it. -/
def blockScalar (literal : Bool) (parent : Int) (cur : Cursor) : Outcome (List Char × Cursor) := do
  let (chomping, depth, cur) ← blockHeader cur
  let cur := cur.skipWhile isBlank
  let cur := if cur.looksAt 0 '#' then cur.skipWhile (fun c => ! isBreak c) else cur
  if ¬ cur.breakOrEndAt 0 then failWith "did not find expected comment or line break"
  let cur := cur.skipLine
  let given := match depth with
    | some n => (max parent 0).toNat + n
    | none => 0
  let (empty, widest, cur) ← blockBreaks given cur.bound [] 0 cur
  let indent := if given = 0 then max (max widest (parent + 1).toNat) 1 else given
  let (b, cur) ← blockLines literal indent cur.bound { empty } cur
  let tail := match chomping with
    | .strip => []
    | .clip => b.lineEnd
    | .keep => b.lineEnd ++ b.empty
  return (b.content.reverse ++ tail, cur)

/-! ### Anchors and tags -/

/-- The name of an anchor or alias after its indicator. -/
def anchorName (cur : Cursor) : Outcome (String × Cursor) :=
  let name := cur.takeWhile isWordChar
  let cur := cur.advanceBy name.length
  let ends := cur.spaceAt 0 || (cur.peek.any fun c => c ∈ ['?', ':', ',', ']', '\x7d', '%', '@', '\x60'])
  if name.isEmpty ∨ ¬ ends then failWith "did not find expected alphabetic or numeric character"
  else .ok (String.ofList name, cur)

/-- The number of bytes of a character that begins with the given byte. -/
def utf8Width? (b : Nat) : Option Nat :=
  if b < 0x80 then some 1
  else if 0xC0 ≤ b ∧ b < 0xE0 then some 2
  else if 0xE0 ≤ b ∧ b < 0xF0 then some 3
  else if 0xF0 ≤ b ∧ b < 0xF8 then some 4
  else none

/-- Bytes written with percent signs: as many as given, each after the first a continuation. -/
def escapedBytes : Nat → Nat → Cursor → Outcome (Nat × Cursor)
  | 0, acc, cur => .ok (acc, cur)
  | more + 1, acc, cur =>
    match cur.rest with
    | '%' :: a :: b :: _ =>
      match ScalarValue.natural? 16 [a, b] with
      | some n =>
        if 0x80 ≤ n ∧ n < 0xC0 then escapedBytes more (acc * 64 + (n - 0x80)) (cur.advanceBy 3)
        else failWith "found an incorrect trailing UTF-8 octet"
      | none => failWith "did not find URI escaped octet"
    | _ => failWith "did not find URI escaped octet"

/-- A character written with percent signs. -/
def escapedChar (cur : Cursor) : Outcome (Char × Cursor) :=
  match cur.rest with
  | '%' :: a :: b :: _ =>
    match ScalarValue.natural? 16 [a, b] with
    | some n =>
      match utf8Width? n with
      | some width => do
        let first := if width = 1 then n else n % Nat.pow 2 (7 - width)
        let (code, cur) ← escapedBytes (width - 1) first (cur.advanceBy 3)
        return (Char.ofNat code, cur)
      | none => failWith "found an incorrect leading UTF-8 octet"
    | none => failWith "did not find URI escaped octet"
  | _ => failWith "did not find URI escaped octet"

/-- A character of a tag; in a verbatim tag or a directive a few more are. -/
def isTagChar (wide : Bool) (c : Char) : Bool :=
  isWordChar c || c ∈ [';', '/', '?', ':', '@', '&', '=', '+', '$', '.', '%', '!', '~', '*', '\'', '(', ')'] ||
  (wide && c ∈ [',', '[', ']'])

/-- The characters of a tag. -/
def tagText (wide : Bool) : Nat → List Char → Cursor → Outcome (List Char × Cursor)
  | 0, acc, cur => .ok (acc.reverse, cur)
  | fuel + 1, acc, cur =>
    match cur.peek with
    | some c =>
      if ¬ isTagChar wide c then .ok (acc.reverse, cur)
      else if c = '%' then do
        let (d, cur) ← escapedChar cur
        tagText wide fuel (d :: acc) cur
      else tagText wide fuel (c :: acc) cur.advance
    | none => .ok (acc.reverse, cur)

/-- A tag's text, with what was read before it; the whole may not be empty. -/
def tagRest (wide : Bool) (head : List Char) (cur : Cursor) : Outcome (List Char × Cursor) := do
  let (text, cur) ← tagText wide cur.bound [] cur
  if head.isEmpty ∧ text.isEmpty then failWith "did not find expected tag URI"
  return (head.drop 1 ++ text, cur)

/-- The handle at the front: an exclamation mark, word characters and perhaps another mark. -/
def tagHandle (directive : Bool) (cur : Cursor) : Outcome (List Char × Cursor) :=
  if ¬ cur.looksAt 0 '!' then failWith "did not find expected '!'"
  else
    let name := cur.advance.takeWhile isWordChar
    let after := cur.advanceBy (1 + name.length)
    if after.looksAt 0 '!' then .ok ('!' :: name ++ ['!'], after.advance)
    else if directive ∧ ¬ name.isEmpty then failWith "did not find expected '!'"
    else .ok ('!' :: name, after)

/-- A tag: its handle and what follows the handle. -/
def tagParts (inFlow : Bool) (cur : Cursor) : Outcome (String × String × Cursor) := do
  let (handle, suffix, cur) ←
    if cur.looksAt 1 '<' then do
      let (suffix, cur) ← tagRest true [] (cur.advanceBy 2)
      if ¬ cur.looksAt 0 '>' then failWith "did not find the expected '>'"
      pure ([], suffix, cur.advance)
    else do
      let (handle, cur') ← tagHandle false cur
      if 1 < handle.length ∧ handle.getLast? = some '!' then do
        let (suffix, cur) ← tagRest false [] cur'
        pure (handle, suffix, cur)
      else do
        let (suffix, cur) ← tagRest false handle cur'
        pure (if suffix.isEmpty then ([], ['!'], cur) else (['!'], suffix, cur))
  if cur.spaceAt 0 ∨ inFlow ∧ cur.looksAt 0 ',' then
    return (String.ofList handle, String.ofList suffix, cur)
  else failWith "did not find expected whitespace or line break"

end SlotFrame.Yaml
