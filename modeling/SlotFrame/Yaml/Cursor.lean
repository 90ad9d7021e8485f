import SlotFrame.Document.Tree

/-! # Positions in a YAML text

A cursor is the rest of a text together with the place that has been reached. Five characters end a
line; all but the line and paragraph separators read as a line feed.

Main definitions: `Yaml.Cursor`, its steps `advance` and `skipLine`, and the character classes. -/

namespace SlotFrame.Yaml

/-- Why a text is not YAML. -/
structure Fault where
  message : String
  deriving DecidableEq, Repr

/-- A place in a text and what follows it. -/
structure Cursor where
  rest : List Char
  index : Nat
  line : Nat
  column : Nat
  /-- More than the number of characters of the whole text. -/
  bound : Nat

/-! ### Character classes -/

/-- Ends a line. -/
def isBreak (c : Char) : Bool :=
  c = '\n' ∨ c = '\r' ∨ c = '\u0085' ∨ c = '\u2028' ∨ c = '\u2029'

/-- A space or a tab. -/
def isBlank (c : Char) : Bool := c = ' ' ∨ c = '\t'

/-- A letter or digit of ASCII, an underscore or a hyphen. -/
def isWordChar (c : Char) : Bool := c.isAlphanum ∨ c = '_' ∨ c = '-'

/-- A character that a text may hold. -/
def isAllowed (c : Char) : Bool :=
  let n := c.toNat
  n = 0x09 ∨ n = 0x0A ∨ n = 0x0D ∨ (0x20 ≤ n ∧ n ≤ 0x7E) ∨ n = 0x85 ∨ (0xA0 ≤ n ∧ n ≤ 0xD7FF) ∨
  (0xE000 ≤ n ∧ n ≤ 0xFFFD) ∨ 0x10000 ≤ n

namespace Cursor

/-- The character some places ahead. -/
def peekAt (cur : Cursor) (n : Nat) : Option Char := cur.rest[n]?

/-- The next character. -/
def peek (cur : Cursor) : Option Char := cur.rest.head?

/-- Whether the character some places ahead is the given one. -/
def looksAt (cur : Cursor) (n : Nat) (c : Char) : Bool := cur.peekAt n = some c

/-- Whether there is a blank some places ahead. -/
def blankAt (cur : Cursor) (n : Nat) : Bool := (cur.peekAt n).any isBlank

/-- Whether the line ends some places ahead. -/
def breakAt (cur : Cursor) (n : Nat) : Bool := (cur.peekAt n).any isBreak

/-- Whether the line or the text ends some places ahead. -/
def breakOrEndAt (cur : Cursor) (n : Nat) : Bool := (cur.peekAt n).all isBreak

/-- Whether there is a blank, or the line or the text ends, some places ahead. -/
def spaceAt (cur : Cursor) (n : Nat) : Bool :=
  match cur.peekAt n with
  | none => true
  | some c => isBlank c || isBreak c

/-- One character further on the same line. -/
def advance (cur : Cursor) : Cursor :=
  { cur with rest := cur.rest.drop 1, index := cur.index + 1, column := cur.column + 1 }

/-- Several characters further on the same line. -/
def advanceBy (cur : Cursor) (n : Nat) : Cursor :=
  { cur with rest := cur.rest.drop n, index := cur.index + n, column := cur.column + n }

/-- Past the end of a line; a carriage return and a line feed are one end. -/
def skipLine (cur : Cursor) : Cursor :=
  match cur.rest with
  | '\r' :: '\n' :: rest =>
    { cur with rest, index := cur.index + 2, line := cur.line + 1, column := 0 }
  | c :: rest =>
    if isBreak c then { cur with rest, index := cur.index + 1, line := cur.line + 1, column := 0 }
    else cur
  | [] => cur

/-- What the end of a line reads as. -/
def lineEnd (cur : Cursor) : List Char :=
  match cur.peek with
  | some c => if c = '\u2028' ∨ c = '\u2029' then [c] else if isBreak c then ['\n'] else []
  | none => []

/-- Skips characters of a class that holds no line end. -/
def skipWhile (cur : Cursor) (p : Char → Bool) : Cursor :=
  cur.advanceBy (cur.rest.takeWhile p).length

/-- The characters of a class at the front. -/
def takeWhile (cur : Cursor) (p : Char → Bool) : List Char := cur.rest.takeWhile p

/-- Whether a document begins or ends here: three hyphens or points at the start of a line. -/
def documentMark? (cur : Cursor) : Option Char :=
  if cur.column ≠ 0 ∨ ¬ cur.spaceAt 3 then none
  else match cur.rest with
    | '-' :: '-' :: '-' :: _ => some '-'
    | '.' :: '.' :: '.' :: _ => some '.'
    | _ => none

end Cursor

end SlotFrame.Yaml
