import SlotFrame.Document.Tree

/-! # Reading JSON text

JSON text is read into a `Tree` of settled leaves; entries of a record stay as they are written, so
that a field written twice is still seen by who decodes the record. Nesting is followed for 127
levels.

Main definitions: `Json.read` and `Json.readValue`. -/

namespace SlotFrame.Json

/-- Why a text is not JSON. -/
inductive Fault where
  | unexpectedEnd
  | unexpected (c : Char)
  | badNumber
  | outOfRange
  | badEscape
  | tooDeep
  deriving DecidableEq, Repr

/-- The wording of a fault. -/
def Fault.message : Fault → String
  | unexpectedEnd => "unexpected end of text"
  | unexpected c => "unexpected character " ++ (repr c).pretty
  | badNumber => "invalid number"
  | outOfRange => "number out of range"
  | badEscape => "invalid escape"
  | tooDeep => "recursion limit exceeded"

/-- The fault at the front of a text. -/
def faultAt : List Char → Fault
  | [] => .unexpectedEnd
  | c :: _ => .unexpected c

/-- Skips the four blank characters. -/
def skipBlank (cs : List Char) : List Char :=
  cs.dropWhile fun c => c = ' ' ∨ c = '\n' ∨ c = '\t' ∨ c = '\r'

/-! ### Numbers

Digits are gathered while they fit into 64 bits; of the rest only the count is kept. A number with a
fraction or an exponent, or one that does not fit, is the gathered number times a power of ten. -/

/-- Whether one more digit still fits into 64 bits. -/
def fits (significand digit : Nat) : Bool := significand * 10 + digit < Nat.pow 2 64

/-- The value of a decimal digit. -/
def digitOf (c : Char) : Nat := c.toNat - '0'.toNat

/-- Gathers digits as long as they fit: the number, how many were taken, and the digits left. -/
def gather : Nat → Nat → List Char → Nat × Nat × List Char
  | significand, taken, c :: rest =>
    if fits significand (digitOf c) then gather (significand * 10 + digitOf c) (taken + 1) rest
    else (significand, taken, c :: rest)
  | significand, taken, [] => (significand, taken, [])

/-- Ten to a power up to 308 as a float. -/
def power (exponent : Nat) : Float := Float.ofScientific 1 false exponent

/-- A number times a power of ten. A quotient too small for one step is reached by several. -/
def scale : Nat → Float → Int → Except Fault Float
  | 0, f, _ => .ok f
  | steps + 1, f, exponent =>
    if exponent.natAbs ≤ 308 then
      if 0 ≤ exponent then
        let g := f * power exponent.toNat
        if g.isInf then .error .outOfRange else .ok g
      else .ok (f / power exponent.natAbs)
    else if f == 0.0 then .ok f
    else if 0 ≤ exponent then .error .outOfRange
    else scale steps (f / power 308) (exponent + 308)

/-- A float from the parts of its text. -/
def floatOf (negative : Bool) (significand : Nat) (exponent : Int) : Except Fault Number := do
  let f ← scale 8 (Float.ofNat significand) exponent
  return .float (if negative then -f else f).toBits

/-- The exponent after its mark: its sign, and its digits. -/
def exponentPart (cs : List Char) : Except Fault ((Bool × Nat) × List Char) :=
  let (down, cs) := match cs with
    | '+' :: rest => (false, rest)
    | '-' :: rest => (true, rest)
    | _ => (false, cs)
  let (digits, rest) := cs.span Char.isDigit
  if digits.isEmpty then .error (faultAt cs)
  else .ok ((down, digits.foldl (fun n c => n * 10 + digitOf c) 0), rest)

/-- Applies an exponent to the parts gathered before it. Beyond 31 bits the result is zero or out of
range. -/
def withExponent (negative : Bool) (significand : Nat) (start : Int) (down : Bool) (e : Nat) :
    Except Fault Number :=
  if Nat.pow 2 31 ≤ e then
    if significand ≠ 0 ∧ ¬ down then .error .outOfRange
    else .ok (.float (if negative then (-0.0 : Float) else (0.0 : Float)).toBits)
  else floatOf negative significand (if down then start - e else start + e)

/-- A whole number without fraction and exponent; negative zero and what does not fit are floats. -/
def wholeOf (negative : Bool) (significand : Nat) : Number :=
  if ¬ negative then .int significand
  else if significand ≠ 0 ∧ significand ≤ Nat.pow 2 63 then .int (-(significand : Int))
  else .float (-(Float.ofNat significand)).toBits

/-- What may follow the gathered digits: an exponent or nothing. -/
def finishFloat (negative : Bool) (significand : Nat) (start : Int) (cs : List Char) :
    Except Fault (Number × List Char) := do
  match cs with
  | c :: rest =>
    if c = 'e' ∨ c = 'E' then
      let ((down, e), rest) ← exponentPart rest
      return (← withExponent negative significand start down e, rest)
    else return (← floatOf negative significand start, cs)
  | [] => return (← floatOf negative significand start, cs)

/-- The rest of a number after its whole digits, of which `dropped` were not gathered. -/
def afterWhole (negative : Bool) (significand dropped : Nat) (cs : List Char) : Except Fault (Number × List Char) :=
  match cs with
  | '.' :: rest =>
    let (digits, rest) := rest.span Char.isDigit
    let (gathered, taken, _) := gather significand 0 digits
    if digits.isEmpty then .error (faultAt rest)
    else finishFloat negative gathered ((dropped : Int) - taken) rest
  | c :: _ =>
    if c = 'e' ∨ c = 'E' ∨ dropped ≠ 0 then finishFloat negative significand dropped cs
    else .ok (wholeOf negative significand, cs)
  | [] =>
    if dropped ≠ 0 then finishFloat negative significand dropped cs
    else .ok (wholeOf negative significand, cs)

/-- A number after its sign. -/
def readNumber (negative : Bool) (cs : List Char) : Except Fault (Number × List Char) :=
  let (digits, rest) := cs.span Char.isDigit
  match digits with
  | [] => .error (faultAt cs)
  | '0' :: _ :: _ => .error .badNumber
  | _ =>
    let (significand, _, left) := gather 0 0 digits
    afterWhole negative significand left.length rest

/-! ### Strings -/

/-- Four hexadecimal digits. -/
def hex4 : List Char → Option (Nat × List Char)
  | a :: b :: c :: d :: rest => do
    let n ← ScalarValue.natural? 16 [a, b, c, d]
    return (n, rest)
  | _ => none

/-- The character of an escape with four digits; a surrogate needs its partner. -/
def unicodeEscape (cs : List Char) : Option (Char × List Char) := do
  let (n, rest) ← hex4 cs
  if 0xDC00 ≤ n ∧ n < 0xE000 then none
  else if 0xD800 ≤ n ∧ n < 0xDC00 then
    match rest with
    | '\\' :: 'u' :: rest => do
      let (m, rest) ← hex4 rest
      if 0xDC00 ≤ m ∧ m < 0xE000 then
        return (Char.ofNat (0x10000 + (n - 0xD800) * 0x400 + (m - 0xDC00)), rest)
      else none
    | _ => none
  else return (Char.ofNat n, rest)

/-- The character of an escape of one letter. -/
def letterEscape? : Char → Option Char
  | '"' => some '"'
  | '\\' => some '\\'
  | '/' => some '/'
  | 'b' => some '\x08'
  | 'f' => some '\x0c'
  | 'n' => some '\n'
  | 'r' => some '\r'
  | 't' => some '\t'
  | _ => none

/-- A string after its opening quote; `acc` holds what was read, last character first. -/
def readString : Nat → List Char → List Char → Except Fault (String × List Char)
  | 0, _, cs => .error (faultAt cs)
  | fuel + 1, acc, cs =>
    match cs with
    | [] => .error .unexpectedEnd
    | '"' :: rest => .ok (String.ofList acc.reverse, rest)
    | '\\' :: 'u' :: rest =>
      match unicodeEscape rest with
      | some (c, rest) => readString fuel (c :: acc) rest
      | none => .error .badEscape
    | '\\' :: e :: rest =>
      match letterEscape? e with
      | some c => readString fuel (c :: acc) rest
      | none => .error .badEscape
    | c :: rest => if c.toNat < 0x20 then .error (.unexpected c) else readString fuel (c :: acc) rest

/-! ### Values -/

/-- A word at the front of a text. -/
def expect (word : List Char) (cs : List Char) : Except Fault (List Char) :=
  match word, cs with
  | [], cs => .ok cs
  | w :: word, c :: rest => if w = c then expect word rest else .error (.unexpected c)
  | _ :: _, [] => .error .unexpectedEnd

mutual

/-- A value, with `depth` levels of nesting left. -/
def readTree : Nat → Nat → List Char → Except Fault (Tree × List Char)
  | 0, _, cs => .error (faultAt cs)
  | fuel + 1, depth, cs =>
    match skipBlank cs with
    | [] => .error .unexpectedEnd
    | '"' :: rest => do
      let (s, rest) ← readString (rest.length + 1) [] rest
      return (.text s, rest)
    | '[' :: rest =>
      if depth = 0 then .error .tooDeep
      else match skipBlank rest with
        | ']' :: rest => .ok (.list false [], rest)
        | rest => do
          let (xs, rest) ← readItems fuel (depth - 1) rest
          return (.list false xs, rest)
    | '\x7b' :: rest =>
      if depth = 0 then .error .tooDeep
      else match skipBlank rest with
        | '\x7d' :: rest => .ok (.record false [], rest)
        | rest => do
          let (es, rest) ← readEntries fuel (depth - 1) rest
          return (.record false es, rest)
    | '-' :: rest => do
      let (n, rest) ← readNumber true rest
      return (.number n, rest)
    | c :: rest =>
      if c.isDigit then do
        let (n, rest) ← readNumber false (c :: rest)
        return (.number n, rest)
      else match c with
        | 'n' => do return (.null, ← expect "ull".toList rest)
        | 't' => do return (.bool true, ← expect "rue".toList rest)
        | 'f' => do return (.bool false, ← expect "alse".toList rest)
        | c => .error (.unexpected c)

/-- The members of a list up to its closing bracket. -/
def readItems : Nat → Nat → List Char → Except Fault ((List Tree) × List Char)
  | 0, _, cs => .error (faultAt cs)
  | fuel + 1, depth, cs => do
    let (t, rest) ← readTree fuel depth cs
    match skipBlank rest with
    | ',' :: rest => do
      let (ts, rest) ← readItems fuel depth rest
      return (t :: ts, rest)
    | ']' :: rest => return ([t], rest)
    | rest => .error (faultAt rest)

/-- The entries of a record up to its closing brace. -/
def readEntries : Nat → Nat → List Char → Except Fault ((List (Key × Tree)) × List Char)
  | 0, _, cs => .error (faultAt cs)
  | fuel + 1, depth, cs => do
    match skipBlank cs with
    | '"' :: rest => do
      let (k, rest) ← readString (rest.length + 1) [] rest
      match skipBlank rest with
      | ':' :: rest => do
        let (t, rest) ← readTree fuel depth rest
        match skipBlank rest with
        | ',' :: rest => do
          let (es, rest) ← readEntries fuel depth rest
          return ((.text k, t) :: es, rest)
        | '\x7d' :: rest => return ([(.text k, t)], rest)
        | rest => .error (faultAt rest)
      | rest => .error (faultAt rest)
    | rest => .error (faultAt rest)

end

/-- A JSON text: one value and nothing but blanks around it. -/
def read (text : String) : Except Fault Tree := do
  let cs := text.toList
  let (t, rest) ← readTree (2 * cs.length + 2) 127 cs
  match skipBlank rest with
  | [] => return t
  | rest => .error (faultAt rest)

/-- The free-form value of a JSON text. -/
def readValue (text : String) : Except Fault Value := do
  match (← read text).value with
  | .ok v => return v
  | .error _ => .error .outOfRange

end SlotFrame.Json
