import SlotFrame.Data.Value

/-! # Writing JSON text

Strings carry the fewest escapes. Floats are written with the fewest digits that read back and a
sign before every exponent. `compact` writes no blanks, `pretty` one member a line, indented by two.

Main definitions: `Json.quote`, `Json.compact`, `Json.pretty`. -/

namespace SlotFrame.Json

/-- The hexadecimal digit of a number below sixteen. -/
def hexDigit (n : Nat) : Char := if n < 10 then Char.ofNat (48 + n) else Char.ofNat (87 + n)

/-- A character within a string. -/
def escape (c : Char) : List Char :=
  match c with
  | '"' => ['\\', '"']
  | '\\' => ['\\', '\\']
  | '\x08' => ['\\', 'b']
  | '\x0c' => ['\\', 'f']
  | '\n' => ['\\', 'n']
  | '\r' => ['\\', 'r']
  | '\t' => ['\\', 't']
  | c =>
    if c.toNat < 0x20 then ['\\', 'u', '0', '0', hexDigit (c.toNat / 16), hexDigit (c.toNat % 16)]
    else [c]

/-- A string in quotes. -/
def quote (s : String) : List Char := '"' :: s.toList.flatMap escape ++ ['"']

/-- Floats carry the sign of their exponent. -/
def floatLayout : Binary64.Layout := ⟨true⟩

/-- A number. -/
def number : Number → List Char
  | .int i => (toString i).toList
  | .float word => (floatLayout.render word).toList

/-- A value without members. -/
def leaf : Value → List Char
  | .null => "null".toList
  | .bool b => (if b then "true" else "false").toList
  | .number n => number n
  | .text s => quote s
  | .list _ => ['[', ']']
  | .record _ => ['\x7b', '\x7d']

mutual

/-- A value without blanks. -/
def compactChars : Value → List Char
  | .list xs => '[' :: compactItems xs ++ [']']
  | .record fs => '\x7b' :: compactFields fs ++ ['\x7d']
  | v => leaf v

/-- Members with commas between them. -/
def compactItems : List Value → List Char
  | [] => []
  | [v] => compactChars v
  | v :: rest => compactChars v ++ ',' :: compactItems rest

/-- Fields with commas between them. -/
def compactFields : List (String × Value) → List Char
  | [] => []
  | [(k, v)] => quote k ++ ':' :: compactChars v
  | (k, v) :: rest => quote k ++ ':' :: compactChars v ++ ',' :: compactFields rest

end

/-- The compact text of a value. -/
def compact (v : Value) : String := String.ofList (compactChars v)

/-- A new line at a depth. -/
def newline (depth : Nat) : List Char := '\n' :: List.replicate (2 * depth) ' '

mutual

/-- A value over several lines. -/
def prettyChars (depth : Nat) : Value → List Char
  | .list (v :: rest) =>
    '[' :: newline (depth + 1) ++ prettyItems (depth + 1) (v :: rest) ++ newline depth ++ [']']
  | .record (f :: rest) =>
    '\x7b' :: newline (depth + 1) ++ prettyFields (depth + 1) (f :: rest) ++ newline depth ++ ['\x7d']
  | v => leaf v

/-- Members, one a line. -/
def prettyItems (depth : Nat) : List Value → List Char
  | [] => []
  | [v] => prettyChars depth v
  | v :: rest => prettyChars depth v ++ ',' :: newline depth ++ prettyItems depth rest

/-- Fields, one a line. -/
def prettyFields (depth : Nat) : List (String × Value) → List Char
  | [] => []
  | [(k, v)] => quote k ++ ':' :: ' ' :: prettyChars depth v
  | (k, v) :: rest =>
    quote k ++ ':' :: ' ' :: prettyChars depth v ++ ',' :: newline depth ++ prettyFields depth rest

end

/-- The text of a value with one member a line. -/
def pretty (v : Value) : String := String.ofList (prettyChars 0 v)

end SlotFrame.Json
