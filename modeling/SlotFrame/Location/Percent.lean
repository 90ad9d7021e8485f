import SlotFrame.Data.Utf8

/-! # Percent encoding

A byte that may not stand in a part of a URL is written as `%` and two hexadecimal digits. Which
characters these are depends on the part.

Main definitions: `Percent.encode`, `Percent.decode`, and the sets of the parts of a URL. -/

namespace SlotFrame.Percent

/-- The upper case hexadecimal digit of a number below sixteen. -/
def digit (n : Nat) : Char := if n < 10 then Char.ofNat (48 + n) else Char.ofNat (55 + n)

/-- The number that a hexadecimal digit stands for. -/
def digitValue? (c : Char) : Option Nat :=
  if '0' ≤ c ∧ c ≤ '9' then some (c.toNat - 48)
  else if 'a' ≤ c ∧ c ≤ 'f' then some (c.toNat - 87)
  else if 'A' ≤ c ∧ c ≤ 'F' then some (c.toNat - 55)
  else none

/-- A byte as it is written. -/
def byte (b : UInt8) : List Char := ['%', digit (b.toNat / 16), digit (b.toNat % 16)]

/-- Writes the characters of a set as their bytes. -/
def encode (set : Char → Bool) (cs : List Char) : List Char :=
  cs.flatMap fun c => if set c then (String.utf8EncodeChar c).flatMap byte else [c]

/-- The bytes of a text in which written bytes are read back. -/
def decode : List Char → List UInt8
  | '%' :: a :: b :: rest =>
    match digitValue? a, digitValue? b with
    | some x, some y => UInt8.ofNat (16 * x + y) :: decode rest
    | _, _ => 0x25 :: decode (a :: b :: rest)
  | c :: rest => String.utf8EncodeChar c ++ decode rest
  | [] => []

/-! ### Sets -/

/-- Control characters and all that is not ASCII. -/
def control (c : Char) : Bool := c.toNat < 0x20 || 0x7e < c.toNat

/-- What is encoded in a fragment. -/
def fragment (c : Char) : Bool := control c || " \"<>\x60".toList.contains c

/-- What is encoded in a query. -/
def query (c : Char) : Bool := control c || " \"#<>".toList.contains c

/-- What is encoded in the query of a special URL. -/
def specialQuery (c : Char) : Bool := query c || c = '\''

/-- What is encoded in a path. -/
def path (c : Char) : Bool := query c || "?^\x60\x7b\x7d".toList.contains c

/-- What is encoded in a user name or a password. -/
def userInfo (c : Char) : Bool := path c || "/:;=@[\\]|".toList.contains c

end SlotFrame.Percent
