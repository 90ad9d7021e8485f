import SlotFrame.Document.Tree

/-! # Scalars of TOML

Strings in four kinds of quotes, whole numbers, floats, truth values, and dates and times.

Main definitions: `Toml.lineString`, `Toml.blockString`, `Toml.word?`. -/

namespace SlotFrame.Toml

/-- A text that is no TOML. -/
inductive Fault where
  | malformed
  | repeatedKey
  | tooDeep
  deriving DecidableEq, Repr

namespace Fault

/-- The wording of a fault. -/
def message : Fault → String
  | malformed => "invalid syntax"
  | repeatedKey => "duplicate key"
  | tooDeep => "recursion limit"

end Fault

/-- The outcome of reading TOML. -/
abbrev Outcome := Except Fault

/-- Characters that may stand in no text: control characters other than the tab. -/
def isControl (c : Char) : Bool := (c.toNat < 0x20 && c ≠ '\t') || c.toNat = 0x7f

/-- A new line at the front, if there is one. -/
def newline? : List Char → Option (List Char)
  | '\n' :: rest => some rest
  | '\r' :: '\n' :: rest => some rest
  | _ => none

/-! ### Strings -/

/-- The character of so many hexadecimal digits. -/
def hexChar (count : Nat) (cs : List Char) : Option (Char × List Char) := do
  let digits := cs.take count
  if digits.length ≠ count then none
  else
    let n ← digits.foldl (fun acc c => do
      return (← acc) * 16 + (← ScalarValue.digitValue? c)) (some 0)
    if n.isValidChar then some (Char.ofNat n, cs.drop count) else none

/-- The character that an escape stands for. -/
def escaped : List Char → Option (Char × List Char)
  | 'b' :: rest => some ('\x08', rest)
  | 't' :: rest => some ('\t', rest)
  | 'n' :: rest => some ('\n', rest)
  | 'f' :: rest => some ('\x0c', rest)
  | 'r' :: rest => some ('\r', rest)
  | '"' :: rest => some ('"', rest)
  | '\\' :: rest => some ('\\', rest)
  | 'u' :: rest => hexChar 4 rest
  | 'U' :: rest => hexChar 8 rest
  | _ => none

/-- Skips blanks and line ends. -/
def skipLines : Nat → List Char → List Char
  | 0, cs => cs
  | fuel + 1, cs =>
    match cs with
    | ' ' :: rest => skipLines fuel rest
    | '\t' :: rest => skipLines fuel rest
    | _ => match newline? cs with
      | some rest => skipLines fuel rest
      | none => cs

/-- What follows a backslash at the end of a line: blanks, a line end, and all blanks after it. -/
def lineEnd? (cs : List Char) : Option (List Char) :=
  (newline? (cs.dropWhile fun c => c = ' ' ∨ c = '\t')).map fun rest => skipLines rest.length rest

/-- A string of one line up to its closing quote; escapes are read if it has them. -/
def lineString (quote : Char) (escapes : Bool) : Nat → List Char → List Char → Outcome (String × List Char)
  | 0, _, _ => .error .malformed
  | _ + 1, _, [] => .error .malformed
  | fuel + 1, acc, c :: rest =>
    if c = quote then .ok (String.ofList acc.reverse, rest)
    else if escapes ∧ c = '\\' then
      match escaped rest with
      | some (d, rest) => lineString quote escapes fuel (d :: acc) rest
      | none => .error .malformed
    else if isControl c then .error .malformed
    else lineString quote escapes fuel (c :: acc) rest

/-- A string of several lines up to its three closing quotes, before which two more may stand. -/
def blockString (quote : Char) (escapes : Bool) : Nat → List Char → List Char → Outcome (String × List Char)
  | 0, _, _ => .error .malformed
  | _ + 1, _, [] => .error .malformed
  | fuel + 1, acc, c :: rest =>
    if c = quote then
      let run := (c :: rest).takeWhile (· = quote)
      let after := (c :: rest).dropWhile (· = quote)
      if run.length < 3 then blockString quote escapes fuel (run ++ acc) after
      else if 5 < run.length then .error .malformed
      else .ok (String.ofList (acc.reverse ++ run.drop 3), after)
    else if escapes ∧ c = '\\' then
      match escaped rest, lineEnd? rest with
      | some (d, rest), _ => blockString quote escapes fuel (d :: acc) rest
      | none, some rest => blockString quote escapes fuel acc rest
      | none, none => .error .malformed
    else match newline? (c :: rest) with
      | some rest => blockString quote escapes fuel ('\n' :: acc) rest
      | none =>
        if isControl c then .error .malformed else blockString quote escapes fuel (c :: acc) rest

/-- A string of one line from its opening quote on. -/
def quoted? (cs : List Char) : Option (Outcome (String × List Char)) :=
  match cs with
  | '"' :: rest => some (lineString '"' true (rest.length + 1) [] rest)
  | '\'' :: rest => some (lineString '\'' false (rest.length + 1) [] rest)
  | _ => none

/-- A string from its opening quotes on; a line end right after three quotes is left out. -/
def string? (cs : List Char) : Option (Outcome (String × List Char)) :=
  let block (quote : Char) (escapes : Bool) (rest : List Char) : Outcome (String × List Char) :=
    let rest := (newline? rest).getD rest
    blockString quote escapes (rest.length + 1) [] rest
  match cs with
  | '"' :: '"' :: '"' :: rest => some (block '"' true rest)
  | '\'' :: '\'' :: '\'' :: rest => some (block '\'' false rest)
  | _ => quoted? cs

/-! ### Numbers -/

/-- Digits of a base between which single underscores may stand; without the underscores. -/
def digits? (base : Nat) (cs : List Char) : Option (List Char) :=
  let isDigit (c : Char) : Bool := (ScalarValue.digitValue? c).any (· < base)
  let rec go : Bool → List Char → Option (List Char)
    | after, [] => if after then some [] else none
    | after, c :: rest =>
      if isDigit c then (go true rest).map (c :: ·)
      else if c = '_' ∧ after ∧ (rest.head?.map isDigit).getD false then go false rest
      else none
  go false cs

/-- A sign and what follows it. -/
def sign (cs : List Char) : Bool × List Char :=
  match cs with
  | '-' :: rest => (true, rest)
  | '+' :: rest => (false, rest)
  | _ => (false, cs)

/-- Decimal digits without a needless zero in front. -/
def decimal? (cs : List Char) : Option (List Char) := do
  let ds ← digits? 10 cs
  match ds with
  | '0' :: _ :: _ => none
  | _ => some ds

/-- A whole number of 64 bits. -/
def whole? (cs : List Char) : Option Int := do
  let n : Int ← match cs with
    | '0' :: 'x' :: rest => (digits? 16 rest).bind fun ds => (ScalarValue.natural? 16 ds).map Int.ofNat
    | '0' :: 'o' :: rest => (digits? 8 rest).bind fun ds => (ScalarValue.natural? 8 ds).map Int.ofNat
    | '0' :: 'b' :: rest => (digits? 2 rest).bind fun ds => (ScalarValue.natural? 2 ds).map Int.ofNat
    | _ =>
      let (negative, body) := sign cs
      (decimal? body).bind fun ds => (ScalarValue.natural? 10 ds).map fun n =>
        if negative then -(n : Int) else n
  if -(Nat.pow 2 63 : Int) ≤ n ∧ n < Nat.pow 2 63 then some n else none

/-- A float: a whole part with a fraction, an exponent or both, or a word for an infinity. -/
def float? (cs : List Char) : Option Tree := do
  let (negative, body) := sign cs
  if body = "inf".toList ∨ body = "nan".toList then return .unbounded
  let isMark (c : Char) : Bool := c = 'e' || c = 'E'
  let mantissa := body.takeWhile fun c => ! isMark c
  let exponent := body.drop mantissa.length
  let whole := mantissa.takeWhile (· ≠ '.')
  let fraction := mantissa.drop whole.length
  let ds ← decimal? whole
  let fs ← match fraction with
    | '.' :: rest => digits? 10 rest
    | _ => some []
  let es ← match exponent with
    | _ :: rest =>
      let (down, rest) := sign rest
      (digits? 10 rest).map fun ds => 'e' :: (if down then ['-'] else []) ++ ds
    | [] => some []
  if fraction.isEmpty ∧ exponent.isEmpty then none
  else
    let text := (if negative then ['-'] else []) ++ ds ++ '.' :: fs ++ es
    let word ← ScalarValue.decimal? text
    return if Binary64.isFinite word then .number (.float word) else .unbounded

/-! ### Dates and times -/

/-- So many decimal digits, as a number. -/
def fixed? (count : Nat) (cs : List Char) : Option (Nat × List Char) :=
  let ds := cs.take count
  if ds.length = count ∧ ds.all Char.isDigit then some (ScalarValue.ofDigits ds, cs.drop count)
  else none

/-- A character at the front. -/
def skip? (p : Char → Bool) : List Char → Option (List Char)
  | c :: rest => if p c then some rest else none
  | [] => none

/-- The number of days of a month. -/
def daysOf (year month : Nat) : Nat :=
  if month = 2 then
    if year % 4 = 0 ∧ (year % 100 ≠ 0 ∨ year % 400 = 0) then 29 else 28
  else if [4, 6, 9, 11].contains month then 30
  else 31

/-- A date. -/
def date? (cs : List Char) : Option (List Char) := do
  let (year, cs) ← fixed? 4 cs
  let (month, cs) ← fixed? 2 (← skip? (· = '-') cs)
  let (day, cs) ← fixed? 2 (← skip? (· = '-') cs)
  if 1 ≤ month ∧ month ≤ 12 ∧ 1 ≤ day ∧ day ≤ daysOf year month then some cs else none

/-- A time of day. -/
def time? (cs : List Char) : Option (List Char) := do
  let (hour, cs) ← fixed? 2 cs
  let (minute, cs) ← fixed? 2 (← skip? (· = ':') cs)
  let (second, cs) ← fixed? 2 (← skip? (· = ':') cs)
  if hour ≤ 23 ∧ minute ≤ 59 ∧ second ≤ 60 then
    match cs with
    | '.' :: rest => if (rest.head?.map Char.isDigit).getD false then some (rest.dropWhile Char.isDigit) else none
    | _ => some cs
  else none

/-- An offset from universal time, if there is one. -/
def offset? (cs : List Char) : Option (List Char) :=
  match cs with
  | 'Z' :: rest => some rest
  | 'z' :: rest => some rest
  | c :: rest =>
    if c = '+' ∨ c = '-' then do
      let (hour, rest) ← fixed? 2 rest
      let (minute, rest) ← fixed? 2 (← skip? (· = ':') rest)
      if hour ≤ 23 ∧ minute ≤ 59 then some rest else none
    else some (c :: rest)
  | [] => some []

/-- What follows a date, a time or both. Nothing here reads them, so only their end matters. -/
def moment? (cs : List Char) : Option (List Char) :=
  match date? cs with
  | none => time? cs
  | some rest =>
    match (skip? (fun c => c = 'T' || c = 't' || c = ' ') rest).bind time? with
    | some rest => offset? rest
    | none => if (rest.head?.map fun c => c = 'T' || c = 't').getD false then none else some rest

/-! ### Words -/

/-- A truth value or a number of which a run of characters consists. -/
def word? (cs : List Char) : Option Tree :=
  if cs = "true".toList then some (.bool true)
  else if cs = "false".toList then some (.bool false)
  else match whole? cs with
    | some n => some (.number (.int n))
    | none => float? cs

/-- Characters of which words consist. -/
def isWordChar (c : Char) : Bool :=
  c.isAlphanum || c = '_' || c = '+' || c = '-' || c = '.'

/-- A scalar that is no string. -/
def bare (cs : List Char) : Outcome (Tree × List Char) :=
  match moment? cs with
  | some rest => .ok (.record false [], rest)
  | none =>
    let word := cs.takeWhile isWordChar
    match word? word with
    | some t => .ok (t, cs.drop word.length)
    | none => .error .malformed

end SlotFrame.Toml
