/-! # Shortest decimals of binary64 words

A finite binary64 word stands for `m * 2 ^ q`. The reals that round to it form an interval, and its
shortest decimal is the point of the coarsest decimal grid that lies in the interval, the nearest one
of several. All of it is done in natural numbers: the interval is scaled so that its ends are whole.

Main definitions: `Binary64.interval`, `Binary64.shortest`, `Layout.render`. -/

namespace SlotFrame.Binary64

/-- The part of a word below its sign. -/
def magnitude (word : UInt64) : Nat := word.toNat % Nat.pow 2 63

/-- Whether the sign bit is set. -/
def isNegative (word : UInt64) : Bool := Nat.pow 2 63 ≤ word.toNat

/-- Neither an infinity nor a NaN. -/
def isFinite (word : UInt64) : Bool := magnitude word < 2047 * Nat.pow 2 52

/-- The reals that round to a word, over a common denominator: the lower end, the value, the upper
end and whether the ends belong to it. -/
structure Interval where
  low : Nat
  value : Nat
  high : Nat
  denominator : Nat
  closed : Bool

/-- The rounding interval of a finite word's magnitude. Below a power of two the gap to the next
word is half as wide. -/
def interval (word : UInt64) : Interval :=
  let e := magnitude word / Nat.pow 2 52
  let f := magnitude word % Nat.pow 2 52
  let m := if e = 0 then f else f + Nat.pow 2 52
  let below := if f = 0 ∧ 1 < e then 1 else 2
  let exponent := if e = 0 then 1 else e
  let up := Nat.pow 2 (exponent - 1077)
  { low := (4 * m - below) * up
    value := 4 * m * up
    high := (4 * m + 2) * up
    denominator := Nat.pow 2 (1077 - exponent)
    closed := m % 2 = 0 }

/-- The number of decimal digits; zero has none. -/
def digitCount (n : Nat) : Nat := if n = 0 then 0 else (Nat.toDigits 10 n).length

/-- The exponent of the first decimal digit of a positive quotient. -/
def leadingExponent (numerator denominator : Nat) : Int :=
  if denominator ≤ numerator then (digitCount (numerator / denominator) : Int) - 1
  else -(digitCount ((denominator + numerator - 1) / numerator - 1) : Int)

/-- A decimal `digits * 10 ^ exponent`. -/
structure Decimal where
  digits : Nat
  exponent : Int
  deriving DecidableEq, Repr

/-- The point of the grid of step `10 ^ p` in an interval that is nearest to its value, the even one
of two that are as near. -/
def gridPoint? (i : Interval) (p : Int) : Option Decimal :=
  let scale := Nat.pow 10 (-p).toNat
  let step := i.denominator * Nat.pow 10 p.toNat
  let inside (d : Nat) : Bool :=
    if i.closed then i.low * scale ≤ d * step ∧ d * step ≤ i.high * scale
    else i.low * scale < d * step ∧ d * step < i.high * scale
  let d := i.value * scale / step
  let middle := (2 * d + 1) * step
  let above := middle < 2 * (i.value * scale) ∨ (middle = 2 * (i.value * scale) ∧ d % 2 = 1)
  match inside d, inside (d + 1) with
  | true, true => some ⟨if above then d + 1 else d, p⟩
  | true, false => some ⟨d, p⟩
  | false, true => some ⟨d + 1, p⟩
  | false, false => none

/-- Drops the zeros at the end of the digits, at most `n` of them. -/
def Decimal.trim : Nat → Decimal → Decimal
  | 0, d => d
  | n + 1, d => if d.digits % 10 = 0 then Decimal.trim n ⟨d.digits / 10, d.exponent + 1⟩ else d

/-- The coarsest grid with a point in the interval; seventeen digits always suffice. -/
def search (i : Interval) (lead : Int) : Nat → Nat → Decimal
  | 0, _ => ⟨i.value / i.denominator, 0⟩
  | more + 1, places =>
    match gridPoint? i (lead - places) with
    | some d => Decimal.trim 20 d
    | none => search i lead more (places + 1)

/-- The shortest decimal that rounds to a finite word's magnitude. -/
def shortest (word : UInt64) : Decimal :=
  if magnitude word = 0 then ⟨0, 0⟩ else
    let i := interval word
    search i (leadingExponent i.value i.denominator) 18 0

/-- How a decimal is laid out where an exponent is written. -/
structure Layout where
  /-- Whether a positive exponent carries its sign. -/
  plus : Bool

/-- Positional from `1e-5` up to `1e16`, always with a point; else one digit before the point and an
exponent. -/
def Layout.render (l : Layout) (word : UInt64) : String :=
  let d := shortest word
  let sign := if isNegative word then "-" else ""
  if d.digits = 0 then sign ++ "0.0" else
    let text := Nat.toDigits 10 d.digits
    let point : Int := text.length + d.exponent
    let body : List Char :=
      if 0 ≤ d.exponent ∧ point ≤ 16 then text ++ List.replicate d.exponent.toNat '0' ++ ['.', '0']
      else if 0 < point ∧ point ≤ 16 then text.take point.toNat ++ '.' :: text.drop point.toNat
      else if -5 < point ∧ point ≤ 0 then '0' :: '.' :: List.replicate (-point).toNat '0' ++ text
      else
        let e := point - 1
        let exponent := (if l.plus ∧ 0 < e then "+" else "") ++ toString e
        text.take 1 ++ (if text.length = 1 then [] else '.' :: text.drop 1) ++ 'e' :: exponent.toList
    sign ++ String.ofList body

end SlotFrame.Binary64
