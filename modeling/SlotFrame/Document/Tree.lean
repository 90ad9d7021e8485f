import SlotFrame.Data.Value

/-! # Documents before decoding

A document is read into a tree whose leaves are either settled (their type is fixed) or scalars as
they were written, whose type the reader of a field chooses: where a text is wanted, `5` is the text
`"5"`; where nothing is wanted in particular, it is a number.

Main definitions: `Scalar.resolve` (the type of a scalar nobody asked for), the readers
`Tree.text`, `Tree.truth`, `Tree.isAbsent`, `Tree.items`, `Tree.entries`, and the two ways to read a
tree as it stands, `Tree.settle` and `Tree.value`. -/

namespace SlotFrame

/-- Why a tree is not of the wanted shape. -/
inductive Mismatch where
  | expected (what : String)
  | repeated (field : String)
  | missing (field : String)
  | tagged
  | unreadable
  deriving DecidableEq, Repr

namespace Mismatch

/-- The wording of a mismatch. -/
def message : Mismatch → String
  | expected what => "expected " ++ what
  | repeated field => "duplicate field '" ++ field ++ "'"
  | missing field => "missing field '" ++ field ++ "'"
  | tagged => "unexpected tag"
  | unreadable => "nested or repeated too deeply"

end Mismatch

/-- The outcome of reading a tree. -/
abbrev Reading := Except Mismatch

/-! ### Scalars -/

/-- The tag of a scalar, as far as it decides the type. -/
inductive ScalarTag where
  | absent
  | bool
  | int
  | float
  | null
  /-- A tag that starts with an exclamation mark. -/
  | application
  /-- Any other tag. -/
  | foreign
  deriving DecidableEq, Repr

/-- How a scalar is written. -/
inductive ScalarStyle where
  | plain
  | quoted
  | literal
  | folded
  deriving DecidableEq, Repr

/-- A scalar as it is written in a document. -/
structure Scalar where
  content : String
  style : ScalarStyle
  tag : ScalarTag
  deriving DecidableEq, Repr

/-- The type that a scalar's content has by itself. -/
inductive ScalarValue where
  | null
  | bool (b : Bool)
  | number (n : Number)
  /-- An infinity or no number at all. -/
  | unbounded
  | text (s : String)
  /-- A whole number outside the range of 64 bits. -/
  | outOfRange
  deriving Repr

namespace ScalarValue

/-- The words for null. -/
def isNullWord (s : String) : Bool := s = "null" ∨ s = "Null" ∨ s = "NULL" ∨ s = "~"

/-- The words for the truth values. -/
def truthWord? (s : String) : Option Bool :=
  if s = "true" ∨ s = "True" ∨ s = "TRUE" then some true
  else if s = "false" ∨ s = "False" ∨ s = "FALSE" then some false
  else none

/-- The value of a digit in bases up to sixteen. -/
def digitValue? (c : Char) : Option Nat :=
  if '0' ≤ c ∧ c ≤ '9' then some (c.toNat - '0'.toNat)
  else if 'a' ≤ c ∧ c ≤ 'f' then some (c.toNat - 'a'.toNat + 10)
  else if 'A' ≤ c ∧ c ≤ 'F' then some (c.toNat - 'A'.toNat + 10)
  else none

/-- A nonempty run of digits of a base. -/
def natural? (base : Nat) (cs : List Char) : Option Nat :=
  if cs.isEmpty then none
  else cs.foldl (fun acc c => do
    let n ← acc
    let d ← digitValue? c
    if d < base then some (n * base + d) else none) (some 0)

/-- Decimal digits with a needless zero in front are text. -/
def hasLeadingZero (cs : List Char) : Bool :=
  let body := match cs with
    | '+' :: rest => rest
    | '-' :: rest => rest
    | _ => cs
  match body with
  | '0' :: c :: rest => (c :: rest).all Char.isDigit
  | _ => false

/-- The base that a two-character mark announces, and what follows it. -/
def basePrefix? : List Char → Option (Nat × List Char)
  | '0' :: 'x' :: rest => some (16, rest)
  | '0' :: 'o' :: rest => some (8, rest)
  | '0' :: 'b' :: rest => some (2, rest)
  | _ => none

/-- The digits after an optional base mark. -/
def magnitude? (cs : List Char) : Option Nat :=
  match basePrefix? cs with
  | some (base, rest) => (natural? base rest).or (natural? 10 cs)
  | none => natural? 10 cs

/-- A whole number: an optional sign, an optional base mark and digits. -/
def integer? (cs : List Char) : Option Int :=
  if hasLeadingZero cs then none
  else match cs with
    | '-' :: rest => (magnitude? rest).map fun n => -(n : Int)
    | '+' :: rest => (magnitude? rest).map fun n => (n : Int)
    | _ => (magnitude? cs).map fun n => (n : Int)

/-- Splits a run of decimal digits off the front. -/
def spanDigits (cs : List Char) : List Char × List Char := cs.span Char.isDigit

/-- The number that a run of decimal digits writes. -/
def ofDigits (cs : List Char) : Nat := cs.foldl (fun n c => n * 10 + (c.toNat - '0'.toNat)) 0

/-- The binary64 word nearest to `digits * 10 ^ exponent`. -/
def nearestWord (negative : Bool) (digits : Nat) (exponent : Int) : UInt64 :=
  let magnitude :=
    if digits = 0 then 0.0
    else if 400 < (Binary64.digitCount digits : Int) + exponent then 1.0 / 0.0
    else if (Binary64.digitCount digits : Int) + exponent < -400 then 0.0
    else if 0 ≤ exponent then Float.ofScientific digits false exponent.toNat
    else Float.ofScientific digits true (-exponent).toNat
  (if negative then -magnitude else magnitude).toBits

/-- A decimal with an optional fraction and exponent, at least one digit before the exponent. -/
def decimal? (cs : List Char) : Option UInt64 :=
  let (negative, body) := match cs with
    | '-' :: rest => (true, rest)
    | '+' :: rest => (false, rest)
    | _ => (false, cs)
  let (whole, rest) := spanDigits body
  let (fraction, rest) := match rest with
    | '.' :: rest => spanDigits rest
    | _ => ([], rest)
  if whole.isEmpty ∧ fraction.isEmpty then none
  else
    let finish (e : Int) : UInt64 := nearestWord negative (ofDigits (whole ++ fraction)) (e - fraction.length)
    match rest with
    | [] => some (finish 0)
    | c :: rest =>
      if c = 'e' ∨ c = 'E' then
        let (down, digits) := match rest with
          | '-' :: rest => (true, rest)
          | '+' :: rest => (false, rest)
          | _ => (false, rest)
        if ¬ digits.isEmpty ∧ digits.all Char.isDigit then
          some (finish (if down then -(ofDigits digits : Int) else ofDigits digits))
        else none
      else none

/-- The spellings of infinity and of no number. -/
def isUnboundedWord (s : String) : Bool :=
  s = ".inf" ∨ s = ".Inf" ∨ s = ".INF" ∨ s = "+.inf" ∨ s = "+.Inf" ∨ s = "+.INF" ∨
  s = "-.inf" ∨ s = "-.Inf" ∨ s = "-.INF" ∨ s = ".nan" ∨ s = ".NaN" ∨ s = ".NAN"

/-- A float: a word for an infinity, or a decimal in the range of binary64. -/
def float? (s : String) : Option ScalarValue :=
  if isUnboundedWord s then some unbounded
  else match decimal? s.toList with
    | some word => if Binary64.isFinite word then some (number (.float word)) else none
    | none => none

/-- Whole numbers are kept up to 64 bits and refused up to 128 bits. -/
def ofInt (i : Int) : Option ScalarValue :=
  if -(Nat.pow 2 63 : Int) ≤ i ∧ i < Nat.pow 2 64 then some (number (.int i))
  else if -(Nat.pow 2 127 : Int) ≤ i ∧ i < Nat.pow 2 128 then some outOfRange
  else none

/-- The type of a plain scalar: null, truth value, whole number, float, or else text. -/
def ofPlain (s : String) : ScalarValue :=
  if s.isEmpty ∨ isNullWord s then null
  else match truthWord? s with
    | some b => bool b
    | none =>
      match (integer? s.toList).bind ofInt with
      | some v => v
      | none =>
        if hasLeadingZero s.toList then text s
        else (float? s).getD (text s)

end ScalarValue

/-- The type of a scalar by its tag, or without one by its content if it is plain. -/
def Scalar.resolve (s : Scalar) : Reading ScalarValue :=
  match s.tag with
  | .application => .error .tagged
  | .foreign => .ok (.text s.content)
  | .bool => match ScalarValue.truthWord? s.content with
    | some b => .ok (.bool b)
    | none => .error (.expected "a boolean")
  | .int => match (ScalarValue.integer? s.content.toList).bind ScalarValue.ofInt with
    | some v => .ok v
    | none => .error (.expected "an integer")
  | .float => match ScalarValue.float? s.content with
    | some v => .ok v
    | none => .error (.expected "a float")
  | .null => if ScalarValue.isNullWord s.content then .ok .null else .error (.expected "null")
  | .absent => match s.style with
    | .plain => .ok (ScalarValue.ofPlain s.content)
    | _ => .ok (.text s.content)

/-! ### Trees -/

/-- The key of an entry. -/
inductive Key where
  | text (s : String)
  | scalar (s : Scalar)
  /-- A settled whole number from zero on. -/
  | index (n : Nat)
  /-- A settled key of another type, or no scalar at all. -/
  | other
  deriving Repr

/-- A document before decoding. -/
inductive Tree where
  | null
  | bool (b : Bool)
  | number (n : Number)
  | unbounded
  | text (s : String)
  | scalar (s : Scalar)
  | list (tagged : Bool) (items : List Tree)
  | record (tagged : Bool) (entries : List (Key × Tree))
  /-- What lies beyond the depth or the repetitions that are followed. -/
  | broken
  deriving Repr, Inhabited

/-- The text of a key; a scalar gives its content whatever its type. -/
def Key.text? : Key → Reading String
  | .text s => .ok s
  | .scalar s => .ok s.content
  | _ => .error (.expected "a string key")

/-- A key whose type is fixed. -/
def Key.settle : Key → Reading Key
  | .scalar s => do
    match ← s.resolve with
    | .text t => .ok (.text t)
    | .number (.int i) => .ok (if 0 ≤ i then .index i.toNat else .other)
    | .outOfRange => .error (.expected "an integer of 64 bits")
    | _ => .ok .other
  | k => .ok k

namespace Tree

/-- A scalar without content in plain style stands for an empty collection too. -/
def isBlank : Tree → Bool
  | scalar s => s.content.isEmpty ∧ s.style = .plain
  | _ => false

/-- Reads a text; an unsettled scalar is taken as it is written. -/
def asText : Tree → Reading String
  | text s => .ok s
  | scalar s => .ok s.content
  | _ => .error (.expected "a string")

/-- Reads a truth value. -/
def truth : Tree → Reading Bool
  | bool b => .ok b
  | scalar s =>
    if s.style = .plain ∨ s.style = .literal ∧ s.tag = .bool then
      match ScalarValue.truthWord? s.content with
      | some b => .ok b
      | none => .error (.expected "a boolean")
    else .error (.expected "a boolean")
  | _ => .error (.expected "a boolean")

/-- Reads a whole number of 64 bits with sign. -/
def whole : Tree → Reading Int
  | number (.int i) => if i < Nat.pow 2 63 then .ok i else .error (.expected "i64")
  | _ => .error (.expected "i64")

/-- Whether an optional value is left out. -/
def isAbsent : Tree → Reading Bool
  | null => .ok true
  | scalar s =>
    if s.style ≠ .plain then .ok false
    else match s.tag with
      | .null => if ScalarValue.isNullWord s.content then .ok true else .error (.expected "null")
      | .absent => .ok (s.content.isEmpty || ScalarValue.isNullWord s.content)
      | _ => .ok false
  | broken => .error .unreadable
  | _ => .ok false

/-- Reads a list. -/
def items (t : Tree) : Reading (List Tree) :=
  match t with
  | list _ xs => .ok xs
  | _ => if t.isBlank then .ok [] else .error (.expected "a sequence")

/-- Reads the entries of a record. -/
def entries (t : Tree) : Reading (List (Key × Tree)) :=
  match t with
  | record _ es => .ok es
  | _ => if t.isBlank then .ok [] else .error (.expected "a map")

/-- Reads an optional value. -/
def optional {α : Type} (read : Tree → Reading α) (t : Tree) : Reading (Option α) := do
  if ← t.isAbsent then return none else return some (← read t)

/-- Reads a list of texts. -/
def texts (t : Tree) : Reading (List String) := do (← t.items).mapM asText

/-- Reads the entries of a record under texts. -/
def fields (t : Tree) : Reading (List (String × Tree)) := do
  (← t.entries).mapM fun e => do return (← e.1.text?, e.2)

/-- A settled scalar. -/
def ofScalarValue : ScalarValue → Reading Tree
  | .null => .ok null
  | .bool b => .ok (bool b)
  | .number n => .ok (number n)
  | .unbounded => .ok unbounded
  | .text s => .ok (text s)
  | .outOfRange => .error (.expected "an integer of 64 bits")

mutual

/-- Fixes the type of every leaf. -/
def settle : Tree → Reading Tree
  | scalar s => do ofScalarValue (← s.resolve)
  | list tagged xs => do
    if tagged then .error .tagged else return list false (← settleList xs)
  | record tagged es => do
    if tagged then .error .tagged else return record false (← settleEntries es)
  | broken => .error .unreadable
  | t => .ok t

/-- Settles the members of a list. -/
def settleList : List Tree → Reading (List Tree)
  | [] => .ok []
  | t :: rest => do return (← settle t) :: (← settleList rest)

/-- Settles the entries of a record. -/
def settleEntries : List (Key × Tree) → Reading (List (Key × Tree))
  | [] => .ok []
  | (k, t) :: rest => do return (← k.settle, ← settle t) :: (← settleEntries rest)

end

/-- The value of a settled scalar; what is not a finite number is null. -/
def valueOfScalar : ScalarValue → Reading Value
  | .null => .ok .null
  | .bool b => .ok (.bool b)
  | .number n => .ok (.number n)
  | .unbounded => .ok .null
  | .text s => .ok (.text s)
  | .outOfRange => .error (.expected "an integer of 64 bits")

mutual

/-- Reads a free-form value. A repeated key keeps its first place and its last value. -/
def value : Tree → Reading Value
  | null => .ok .null
  | bool b => .ok (.bool b)
  | number n => .ok (.number n)
  | unbounded => .ok .null
  | text s => .ok (.text s)
  | scalar s => do valueOfScalar (← s.resolve)
  | list tagged xs => do
    if tagged then .error .tagged else return .list (← valueList xs)
  | record tagged es => do
    if tagged then .error .tagged else return .record (gatherKeys (← valueEntries es))
  | broken => .error .unreadable

/-- The values of a list's members. -/
def valueList : List Tree → Reading (List Value)
  | [] => .ok []
  | t :: rest => do return (← value t) :: (← valueList rest)

/-- The values of a record's entries. -/
def valueEntries : List (Key × Tree) → Reading (List (String × Value))
  | [] => .ok []
  | (k, t) :: rest => do return (← k.text?, ← value t) :: (← valueEntries rest)

end

mutual

/-- A value as a tree of settled leaves. -/
def ofValue : Value → Tree
  | .null => null
  | .bool b => bool b
  | .number n => number n
  | .text s => text s
  | .list xs => list false (ofValueList xs)
  | .record fs => record false (ofValueFields fs)

/-- The trees of a list's members. -/
def ofValueList : List Value → List Tree
  | [] => []
  | v :: rest => ofValue v :: ofValueList rest

/-- The trees of a record's fields. -/
def ofValueFields : List (String × Value) → List (Key × Tree)
  | [] => []
  | (k, v) :: rest => (.text k, ofValue v) :: ofValueFields rest

end

/-- Reads a table whose entries, and the table itself, may be left out. -/
def registry {α : Type} (blank : α) (read : Tree → Reading α) (t : Tree) : Reading (Table α) := do
  if ← t.isAbsent then return ∅
  let es ← (← t.fields).mapM fun e => do
    return (e.1, (← e.2.optional read).getD blank)
  return Table.ofList es

/-- Reads a table. -/
def table {α : Type} (read : Tree → Reading α) (t : Tree) : Reading (Table α) := do
  let es ← (← t.fields).mapM fun e => do return (e.1, ← read e.2)
  return Table.ofList es

end Tree

end SlotFrame
