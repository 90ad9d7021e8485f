import SlotFrame.Toml.Table

/-! # Reading TOML

A document is a sequence of lines: headers, and keys with their values under the last header. Arrays
may run over several lines; inline tables stand on one.

Main definition: `Toml.read`. -/

namespace SlotFrame.Toml

/-! ### Blanks and keys -/

/-- Skips blanks within a line. -/
def skipBlank (cs : List Char) : List Char := cs.dropWhile fun c => c = ' ' ∨ c = '\t'

/-- Skips a comment, which holds no control characters. -/
def skipComment (cs : List Char) : Outcome (List Char) :=
  match cs with
  | '#' :: rest =>
    let text := rest.takeWhile fun c => c ≠ '\n' ∧ c ≠ '\r'
    if text.any isControl then .error .malformed else .ok (rest.drop text.length)
  | _ => .ok cs

/-- Skips what may stand at the end of a line, and the line end. -/
def skipLineEnd (cs : List Char) : Outcome (List Char) := do
  let cs ← skipComment (skipBlank cs)
  match cs, newline? cs with
  | [], _ => return []
  | _, some rest => return rest
  | _, none => .error .malformed

/-- Skips blanks, comments and line ends. -/
def skipGap : Nat → List Char → Outcome (List Char)
  | 0, cs => .ok cs
  | fuel + 1, cs => do
    let cs ← skipComment (skipBlank cs)
    match newline? cs with
    | some rest => skipGap fuel rest
    | none => return cs

/-- Whether a character may stand in a key without quotes. -/
def isKeyChar (c : Char) : Bool := c.isAlphanum || c = '_' || c = '-'

/-- One part of a key. -/
def keyPart (cs : List Char) : Outcome (String × List Char) :=
  match quoted? cs with
  | some r => r
  | none =>
    let name := cs.takeWhile isKeyChar
    if name.isEmpty then .error .malformed else .ok (String.ofList name, cs.drop name.length)

/-- The parts of a key between dots, and what follows it and its blanks. -/
def dottedKey : Nat → List Char → Outcome (List String × List Char)
  | 0, _ => .error .malformed
  | fuel + 1, cs => do
    let (part, rest) ← keyPart (skipBlank cs)
    match skipBlank rest with
    | '.' :: rest =>
      let (parts, rest) ← dottedKey fuel rest
      return (part :: parts, rest)
    | rest => return ([part], rest)

/-- A key and the equals sign after it. -/
def keyAndEquals (cs : List Char) : Outcome (List String × List Char) := do
  let (key, rest) ← dottedKey (cs.length + 1) cs
  match rest with
  | '=' :: rest => return (key, skipBlank rest)
  | _ => .error .malformed

/-! ### Values -/

mutual

/-- A value, with so many levels of nesting left. -/
def readValue : Nat → Nat → List Char → Outcome (Tree × List Char)
  | 0, _, _ => .error .malformed
  | fuel + 1, depth, cs =>
    match string? cs with
    | some r => r.map fun (s, rest) => (.text s, rest)
    | none =>
      match cs with
      | '[' :: rest =>
        if depth = 0 then .error .tooDeep
        else (readItems fuel (depth - 1) rest).map fun (xs, rest) => (.list false xs, rest)
      | '\x7b' :: rest =>
        if depth = 0 then .error .tooDeep
        else match skipBlank rest with
          | '\x7d' :: rest => .ok (.record false [], rest)
          | rest => (readInline fuel (depth - 1) [] rest).map fun (es, rest) =>
              (.record false (treeEntries es), rest)
      | _ => bare cs

/-- The members of an array up to its closing bracket; a comma may stand after the last. -/
def readItems : Nat → Nat → List Char → Outcome (List Tree × List Char)
  | 0, _, _ => .error .malformed
  | fuel + 1, depth, cs => do
    match ← skipGap cs.length cs with
    | ']' :: rest => return ([], rest)
    | cs =>
      let (t, rest) ← readValue fuel depth cs
      match ← skipGap rest.length rest with
      | ',' :: rest =>
        let (ts, rest) ← readItems fuel depth rest
        return (t :: ts, rest)
      | ']' :: rest => return ([t], rest)
      | _ => .error .malformed

/-- The entries of an inline table up to its closing brace. -/
def readInline : Nat → Nat → Entries → List Char → Outcome (Entries × List Char)
  | 0, _, _, _ => .error .malformed
  | fuel + 1, depth, es, cs => do
    let (key, rest) ← keyAndEquals cs
    let (t, rest) ← readValue fuel depth rest
    let es ← putDotted t key (key.length = 1) es
    match skipBlank rest with
    | ',' :: rest => readInline fuel depth es rest
    | '\x7d' :: rest => return (es, rest)
    | _ => .error .malformed

end

/-! ### Documents -/

/-- Reads a header between brackets, and opens its table. -/
def readHeader (es : Entries) (isElement : Bool) (cs : List Char) :
    Outcome (List String × Entries × List Char) := do
  let (path, rest) ← dottedKey (cs.length + 1) cs
  let rest ← match isElement, rest with
    | true, ']' :: ']' :: rest => .ok rest
    | false, ']' :: rest => .ok rest
    | _, _ => .error .malformed
  let es ← if isElement then openElement path es else openTable path es
  return (path, es, ← skipLineEnd rest)

/-- Reads lines under the header of a path. -/
def readLines : Nat → List String → Entries → List Char → Outcome Entries
  | 0, _, _, _ => .error .malformed
  | fuel + 1, path, es, cs => do
    match ← skipGap cs.length cs with
    | [] => return es
    | '[' :: '[' :: rest =>
      let (path, es, rest) ← readHeader es true rest
      readLines fuel path es rest
    | '[' :: rest =>
      let (path, es, rest) ← readHeader es false rest
      readLines fuel path es rest
    | cs =>
      let (key, rest) ← keyAndEquals cs
      let (t, rest) ← readValue (2 * rest.length + 2) 80 rest
      let es ← putUnder path key t es
      readLines fuel path es (← skipLineEnd rest)

/-- A TOML text. -/
def read (text : String) : Outcome Tree := do
  let cs := match text.toList with
    | '\ufeff' :: rest => rest
    | cs => cs
  let es ← readLines (cs.length + 1) [] [] cs
  return .record false (treeEntries es)

end SlotFrame.Toml
