import SlotFrame.Data.Text

/-! # Durations

A duration is written as numbers with units, such as `1h 30m` or `1.5s`, and printed in the largest
units first; a year is 365.25 days and a month 30.44.

Main definitions: `Duration.read?`, `Duration.render`, `Duration.brief`. -/

namespace SlotFrame

/-- A span of time in whole nanoseconds. -/
structure Duration where
  nanos : Nat
  deriving DecidableEq, Repr, Inhabited

namespace Duration

/-- A number of seconds. -/
def ofSeconds (n : Nat) : Duration := ⟨n * 1000000000⟩

/-- A number of milliseconds. -/
def ofMillis (n : Nat) : Duration := ⟨n * 1000000⟩

/-! ### Units -/

/-- A unit of time. -/
inductive Unit where
  | nanosecond
  | microsecond
  | millisecond
  | second
  | minute
  | hour
  | day
  | week
  | month
  | year
  deriving DecidableEq, Repr

namespace Unit

/-- The spellings of a unit. -/
def spellings : Unit → List String
  | nanosecond => ["nanos", "nsec", "ns"]
  | microsecond => ["usec", "us", "µs"]
  | millisecond => ["millis", "msec", "ms"]
  | second => ["seconds", "second", "secs", "sec", "s"]
  | minute => ["minutes", "minute", "mins", "min", "m"]
  | hour => ["hours", "hour", "hrs", "hr", "h"]
  | day => ["days", "day", "d"]
  | week => ["weeks", "week", "wks", "wk", "w"]
  | month => ["months", "month", "M"]
  | year => ["years", "year", "yrs", "yr", "y"]

/-- All units. -/
def all : List Unit :=
  [nanosecond, microsecond, millisecond, second, minute, hour, day, week, month, year]

/-- The unit that a word stands for. -/
def ofWord? (word : String) : Option Unit := all.find? fun u => u.spellings.contains word

/-- The seconds and the nanoseconds of one unit; one of them is zero. -/
def size : Unit → Nat × Nat
  | nanosecond => (0, 1)
  | microsecond => (0, 1000)
  | millisecond => (0, 1000000)
  | second => (1, 0)
  | minute => (60, 0)
  | hour => (3600, 0)
  | day => (86400, 0)
  | week => (604800, 0)
  | month => (2630016, 0)
  | year => (31557600, 0)

/-- What a fraction of a unit is counted in: seconds from the hour on, nanoseconds below. A
nanosecond has no fractions. -/
def fractionSize : Unit → Option (Nat × Nat)
  | nanosecond => none
  | second => some (0, 1000000000)
  | minute => some (0, 60000000000)
  | u => some u.size

end Unit

/-! ### Reading -/

/-- A number that fits into 64 bits. -/
def fits? (n : Nat) : Option Nat := if n < Nat.pow 2 64 then some n else none

/-- Characters that stand for nothing. -/
def isBlank (c : Char) : Bool :=
  (0x9 ≤ c.toNat && c.toNat ≤ 0xd) || c = ' ' || c.toNat = 0x85 || c.toNat = 0xa0 ||
    c.toNat = 0x1680 || (0x2000 ≤ c.toNat && c.toNat ≤ 0x200a) || c.toNat = 0x2028 ||
    c.toNat = 0x2029 || c.toNat = 0x202f || c.toNat = 0x205f || c.toNat = 0x3000

/-- Characters of units. -/
def isUnitChar (c : Char) : Bool := c.isAlpha || c = 'µ'

/-- Digits up to a unit or a point, with blanks left out; what follows begins with the unit. -/
def readWhole : Nat → List Char → Option (Nat × Bool × List Char)
  | n, [] => some (n, false, [])
  | n, c :: rest =>
    if c.isDigit then (fits? (n * 10 + (c.toNat - 48))).bind fun n => readWhole n rest
    else if isBlank c then readWhole n rest
    else if isUnitChar c then some (n, false, c :: rest)
    else if c = '.' then some (n, true, rest)
    else none

/-- Digits after a point up to a unit: the number that they write, and the power of ten below it. -/
def readFraction : Nat → Nat → List Char → Option (Nat × Nat × List Char)
  | n, d, [] => some (n, d, [])
  | n, d, c :: rest =>
    if c.isDigit then do
      let d ← fits? (d * 10)
      let n ← fits? (n * 10 + (c.toNat - 48))
      readFraction n d rest
    else if isBlank c then readFraction n d rest
    else if isUnitChar c then some (n, d, c :: rest)
    else none

/-- Seconds and nanoseconds added to a duration of at most 64 bits of seconds. -/
def add? (total : Duration) (seconds nanos : Nat) : Option Duration := do
  let seconds ← fits? seconds
  let nanos ← fits? nanos
  let sum := total.nanos + seconds * 1000000000 + nanos
  if sum / 1000000000 < Nat.pow 2 64 then some ⟨sum⟩ else none

/-- So many units added to a duration. -/
def addUnits? (total : Duration) (u : Unit) (n : Nat) (fraction : Option (Nat × Nat)) :
    Option Duration := do
  let total ← total.add? (n * u.size.1) (n * u.size.2)
  match fraction with
  | none => return total
  | some (n, d) =>
    let size ← u.fractionSize
    let seconds ← fits? (n * size.1)
    let nanos ← fits? (n * size.2)
    total.add? (seconds / d) (nanos / d)

/-- The parts of a duration that are left, from the first digit of a number on. -/
def readParts : Nat → Duration → List Char → Option Duration
  | 0, _, _ => none
  | fuel + 1, total, cs => do
    let (n, hasFraction, rest) ← readWhole 0 cs
    let (fraction, rest) ←
      if hasFraction then
        (readFraction 0 1 rest).bind fun (n, d, rest) =>
          if d = 1 then none else some (some (n, d), rest)
      else some (none, rest)
    let word := rest.takeWhile isUnitChar
    let rest := rest.drop word.length
    let u ← Unit.ofWord? (String.ofList word)
    let total ← total.addUnits? u n fraction
    match rest with
    | [] => return total
    | c :: more =>
      if c.isDigit then readParts fuel total rest
      else if isBlank c then
        match more.dropWhile isBlank with
        | [] => return total
        | d :: more => if d.isDigit then readParts fuel total (d :: more) else none
      else none

/-- The duration that a text writes; a lone zero needs no unit. -/
def read? (s : String) : Option Duration :=
  if s = "0" then some ⟨0⟩
  else match s.toList.dropWhile isBlank with
    | c :: rest => if c.isDigit then readParts (rest.length + 2) ⟨0⟩ (c :: rest) else none
    | [] => none

/-! ### Writing -/

/-- A number of units under a word, none for zero. -/
def part (n : Nat) (word : String) : List String := if n = 0 then [] else [toString n ++ word]

/-- A number of units under a word that has a plural. -/
def pluralPart (n : Nat) (word : String) : List String :=
  part n (if 1 < n then word ++ "s" else word)

/-- A duration in its units, largest first. -/
def render (d : Duration) : String :=
  let seconds := d.nanos / 1000000000
  let nanos := d.nanos % 1000000000
  let years := seconds / 31557600
  let inYear := seconds % 31557600
  let months := inYear / 2630016
  let inMonth := inYear % 2630016
  let days := inMonth / 86400
  let inDay := inMonth % 86400
  if d.nanos = 0 then "0s"
  else " ".intercalate (
    pluralPart years "year" ++ pluralPart months "month" ++ pluralPart days "day" ++
    part (inDay / 3600) "h" ++ part (inDay % 3600 / 60) "m" ++ part (inDay % 60) "s" ++
    part (nanos / 1000000) "ms" ++ part (nanos / 1000 % 1000) "us" ++ part (nanos % 1000) "ns")

/-- A number of thousandths, millionths or billionths behind a point, without zeros at the end. -/
def decimals (places n : Nat) : String :=
  let digits := (toString n).toList
  let padded := List.replicate (places - digits.length) '0' ++ digits
  match trimEnd (· = '0') padded with
  | [] => ""
  | ds => String.ofList ('.' :: ds)

/-- A duration as a decimal number of its largest unit up to the second. -/
def brief (d : Duration) : String :=
  let n := d.nanos
  if 1000000000 ≤ n then toString (n / 1000000000) ++ decimals 9 (n % 1000000000) ++ "s"
  else if 1000000 ≤ n then toString (n / 1000000) ++ decimals 6 (n % 1000000) ++ "ms"
  else if 1000 ≤ n then toString (n / 1000) ++ decimals 3 (n % 1000) ++ "µs"
  else toString n ++ "ns"

end Duration

end SlotFrame
