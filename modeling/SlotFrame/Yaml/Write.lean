import SlotFrame.Document.Tree
import SlotFrame.Yaml.Cursor

/-! # Writing YAML text

Values are written in block style, two columns deeper for each record; the members of a list stand
at the column of their key. A text is written plainly when that reads back as the text, as a literal
block when it has several lines, and in quotes otherwise.

Main definitions: `Yaml.textStyle` (how a text is written) and `Yaml.write`. -/

namespace SlotFrame.Yaml

/-! ### How a text may be written -/

/-- What an analysis of a text finds. -/
structure Traits where
  /-- Has more than one line. -/
  multiline : Bool := false
  plain : Bool := true
  singleQuoted : Bool := true
  block : Bool := true

/-- A character that is written as it is. -/
def isPrintable (c : Char) : Bool :=
  let n := c.toNat
  n = 0x0A ∨ (0x20 ≤ n ∧ n ≤ 0x7E) ∨ (0xA0 ≤ n ∧ n ≤ 0xD7FF) ∨
  (0xE000 ≤ n ∧ n ≤ 0xFFFD ∧ n ≠ 0xFEFF)

/-- A blank, a line end, or the end of the text. -/
def isSpaceOrEnd (c : Option Char) : Bool := c.all fun c => isBlank c || isBreak c

/-- Whether a character at the front of a text marks something else in a block. -/
def leadsBlock (c : Char) (next : Option Char) : Bool :=
  c ∈ ['#', ',', '[', ']', '\x7b', '\x7d', '&', '*', '!', '|', '>', '\'', '"', '%', '@', '\x60'] ||
  ((c = '?' || c = ':' || c = '-') && isSpaceOrEnd next)

/-- Whether a character inside a text marks something else in a block. -/
def breaksBlock (previous c : Char) (next : Option Char) : Bool :=
  (c = ':' && isSpaceOrEnd next) || (c = '#' && isSpaceOrEnd (some previous))

/-- Whether two neighbours anywhere in a text satisfy a relation. -/
def anyPair (r : Char → Char → Bool) : List Char → Bool
  | a :: b :: rest => r a b || anyPair r (b :: rest)
  | _ => false

/-- Whether a character after the first marks something else in a block. -/
def anyMark : List Char → Bool
  | a :: b :: rest => breaksBlock a b rest.head? || anyMark (b :: rest)
  | _ => false

/-- The ways in which a text may be written. -/
def traits (cs : List Char) : Traits :=
  match cs with
  | [] => { block := false }
  | first :: rest =>
    let last := (first :: rest).getLast (by simp)
    let lines := cs.any isBreak
    let special := cs.any fun c => ! isPrintable c
    let spaceBreak := anyPair (fun a b => a = ' ' && isBreak b) cs
    let breakSpace := anyPair (fun a b => isBreak a && b = ' ') cs
    let document := cs.take 3 = ['-', '-', '-'] ∨ cs.take 3 = ['.', '.', '.']
    let marks := document || leadsBlock first rest.head? || anyMark cs
    let edges := first = ' ' || isBreak first || last = ' ' || isBreak last
    { multiline := lines
      plain := ! (edges || breakSpace || spaceBreak || special || lines || marks)
      singleQuoted := ! (breakSpace || spaceBreak || special)
      block := ! (last = ' ' || spaceBreak || special) }

/-- The styles of a text. -/
inductive TextStyle where
  | plain
  | single
  | double
  | literal
  deriving DecidableEq

/-- The style of a text. A text that would read as another type is quoted; one with line feeds is a
literal block; what a style does not allow is quoted, if need be with escapes. -/
def textStyle (isKey : Bool) (s : String) : TextStyle :=
  let t := traits s.toList
  let quotedOr (style : TextStyle) : TextStyle :=
    match style with
    | .single => if t.singleQuoted then .single else .double
    | style => style
  if isKey ∧ t.multiline then .double
  else if s.toList.contains '\n' then
    if t.block ∧ ¬ isKey then .literal else .double
  else match ScalarValue.ofPlain s with
    | .text _ =>
      if ScalarValue.hasLeadingZero s.toList then quotedOr .single
      else if t.plain then .plain
      else quotedOr .single
    | _ => quotedOr .single

/-! ### The page -/

/-- What is written so far, last character first, and where the pen stands. -/
structure Page where
  text : List Char := []
  column : Nat := 0
  /-- The last thing written separates what follows. -/
  spaced : Bool := true
  /-- Nothing but indentation and indicators stands on the line. -/
  fresh : Bool := true

namespace Page

/-- Writes a character. -/
def put (p : Page) (c : Char) : Page := { p with text := c :: p.text, column := p.column + 1 }

/-- Writes characters. -/
def puts (p : Page) (cs : List Char) : Page := cs.foldl put p

/-- Ends the line with a character. -/
def endLine (p : Page) (c : Char) : Page := { p with text := c :: p.text, column := 0 }

/-- Goes to an indentation, on a new line unless the pen stands on fresh ground before it. -/
def indentTo (p : Page) (indent : Nat) : Page :=
  let p := if ¬ p.fresh ∨ indent < p.column ∨ (p.column = indent ∧ ¬ p.spaced) then p.endLine '\n' else p
  { p.puts (List.replicate (indent - p.column) ' ') with spaced := true, fresh := true }

/-- Writes an indicator, apart from what stands before it if need be. -/
def mark (p : Page) (cs : List Char) (apart spaces keepsFresh : Bool) : Page :=
  let p := if apart ∧ ¬ p.spaced then p.put ' ' else p
  { p.puts cs with spaced := spaces, fresh := p.fresh && keepsFresh }

/-- Writes a plain scalar. -/
def plain (p : Page) (cs : List Char) : Page :=
  let p := if ¬ p.spaced ∧ ¬ cs.isEmpty then p.put ' ' else p
  { p.puts cs with spaced := false, fresh := false }

/-- Writes a line end of a text. -/
def putBreak (p : Page) (c : Char) : Page := { p.endLine c with fresh := true }

/-- The inside of a single-quoted text; the flag tells that a line end came last. -/
def singleChars (indent : Nat) : Bool → List Char → Page → Page
  | broken, [], p => if broken then p.indentTo indent else p
  | broken, c :: rest, p =>
    if c = ' ' then singleChars indent broken rest (p.put c)
    else if isBreak c then
      let p := if ¬ broken ∧ c = '\n' then p.endLine '\n' else p
      singleChars indent true rest (p.putBreak c)
    else
      let p := if broken then p.indentTo indent else p
      let p := if c = '\'' then p.put '\'' else p
      singleChars indent false rest { p.put c with fresh := false }

/-- Writes a single-quoted text. -/
def single (p : Page) (indent : Nat) (cs : List Char) : Page :=
  let p := singleChars indent false cs (p.mark ['\''] true false false)
  { p.mark ['\''] false false false with spaced := false, fresh := false }

/-- A number in hexadecimal digits of a fixed count. -/
def hexDigits (width n : Nat) : List Char :=
  let ds := (Nat.toDigits 16 n).map Char.toUpper
  List.replicate (width - ds.length) '0' ++ ds

/-- A character of a double-quoted text. -/
def escape (c : Char) : List Char :=
  if isPrintable c ∧ ¬ isBreak c ∧ c ≠ '"' ∧ c ≠ '\\' then [c]
  else
    let n := c.toNat
    '\\' :: (match n with
      | 0x00 => ['0']
      | 0x07 => ['a']
      | 0x08 => ['b']
      | 0x09 => ['t']
      | 0x0A => ['n']
      | 0x0B => ['v']
      | 0x0C => ['f']
      | 0x0D => ['r']
      | 0x1B => ['e']
      | 0x22 => ['"']
      | 0x5C => ['\\']
      | 0x85 => ['N']
      | 0x2028 => ['L']
      | 0x2029 => ['P']
      | n =>
        if n ≤ 0xFF then 'x' :: hexDigits 2 n
        else if n ≤ 0xFFFF then 'u' :: hexDigits 4 n
        else 'U' :: hexDigits 8 n)

/-- Writes a double-quoted text. -/
def double (p : Page) (cs : List Char) : Page :=
  let p := (p.mark ['"'] true false false).puts (cs.flatMap escape)
  { p.mark ['"'] false false false with spaced := false, fresh := false }

/-- What the header of a literal block says: its indentation if the text begins with a blank, and how
its end is chomped. -/
def literalHeader (cs : List Char) : List Char :=
  let indentation := match cs with
    | c :: _ => if c = ' ' ∨ isBreak c then ['2'] else []
    | [] => []
  let chomping := match cs.reverse with
    | [] => ['-']
    | c :: rest =>
      if ¬ isBreak c then ['-']
      else match rest with
        | [] => ['+']
        | d :: _ => if isBreak d then ['+'] else []
  '|' :: indentation ++ chomping

/-- The lines of a literal block; the flag tells that a line end came last. -/
def literalChars (indent : Nat) : Bool → List Char → Page → Page
  | _, [], p => p
  | broken, c :: rest, p =>
    if isBreak c then literalChars indent true rest (p.putBreak c)
    else
      let p := if broken then p.indentTo indent else p
      literalChars indent false rest { p.put c with fresh := false }

/-- Writes a literal block. -/
def literal (p : Page) (indent : Nat) (cs : List Char) : Page :=
  let p := p.mark (literalHeader cs) true false false
  literalChars indent true cs { p.endLine '\n' with spaced := true, fresh := true }

/-- Writes a text in its style. -/
def string (p : Page) (indent : Nat) (isKey : Bool) (s : String) : Page :=
  match textStyle isKey s with
  | .plain => p.plain s.toList
  | .single => p.single indent s.toList
  | .double => p.double s.toList
  | .literal => p.literal indent s.toList

end Page

/-! ### Values -/

/-- Floats carry no plus sign in their exponent. -/
def floatLayout : Binary64.Layout := ⟨false⟩

/-- A number. -/
def number : Number → List Char
  | .int i => (toString i).toList
  | .float word => (floatLayout.render word).toList

/-- Whether a key stands in front of its colon on one line: it is short and has no line end. -/
def isSimpleKey (k : String) : Bool := ! k.toList.any isBreak && k.utf8ByteSize ≤ 128

/-- The indentation of a block inside another; there is none around the outermost. -/
def deeper : Option Nat → Nat
  | none => 0
  | some n => n + 2

/-- The indentation of a scalar's further lines. -/
def scalarIndent : Option Nat → Nat
  | none => 2
  | some n => n + 2

mutual

/-- Writes a value in a block of the given indentation; `underKey` holds for the value of a field. -/
def writeValue (indent : Option Nat) (underKey : Bool) : Value → Page → Page
  | .null, p => p.plain "null".toList
  | .bool b, p => p.plain (if b then "true" else "false").toList
  | .number n, p => p.plain (number n)
  | .text s, p => p.string (scalarIndent indent) false s
  | .list [], p => (p.mark ['['] true true false).mark [']'] false false false
  | .record [], p => (p.mark ['\x7b'] true true false).mark ['\x7d'] false false false
  | .list (v :: rest), p =>
    let inner := match indent with
      | some n => if underKey ∧ ¬ p.fresh then n else n + 2
      | none => 0
    writeItems inner (v :: rest) p
  | .record (f :: rest), p => writeFields (deeper indent) (f :: rest) p

/-- Writes the members of a list. -/
def writeItems (indent : Nat) : List Value → Page → Page
  | [], p => p
  | v :: rest, p =>
    let p := (p.indentTo indent).mark ['-'] true false true
    writeItems indent rest (writeValue (some indent) false v p)

/-- Writes the fields of a record. -/
def writeFields (indent : Nat) : List (String × Value) → Page → Page
  | [], p => p
  | (k, v) :: rest, p =>
    let p := p.indentTo indent
    let p :=
      if isSimpleKey k then (p.string (indent + 2) true k).mark [':'] false false false
      else
        let p := (p.mark ['?'] true false true).string (indent + 2) false k
        (p.indentTo indent).mark [':'] true false true
    writeFields indent rest (writeValue (some indent) true v p)

end

/-- The text of a value. -/
def write (v : Value) : String :=
  let p := (writeValue none false v {}).indentTo 0
  String.ofList p.text.reverse

end SlotFrame.Yaml
