/-! # UTF-8

Bytes of texts, and texts of bytes: strictly, or with a replacement character for every longest run
of bytes that begins a character but does not complete one.

Main definitions: `utf8Bytes`, `utf8Text?`, `utf8Lossy`. -/

namespace SlotFrame

/-- The bytes of a text. -/
def utf8Bytes (cs : List Char) : List UInt8 := cs.flatMap String.utf8EncodeChar

/-- The bytes that may follow a first byte: how many, and the range of the second. -/
def continuation? (b : UInt8) : Option (Nat × UInt8 × UInt8) :=
  if b < 0x80 then some (0, 0x80, 0xbf)
  else if 0xc2 ≤ b ∧ b ≤ 0xdf then some (1, 0x80, 0xbf)
  else if b = 0xe0 then some (2, 0xa0, 0xbf)
  else if b = 0xed then some (2, 0x80, 0x9f)
  else if 0xe1 ≤ b ∧ b ≤ 0xef then some (2, 0x80, 0xbf)
  else if b = 0xf0 then some (3, 0x90, 0xbf)
  else if 0xf1 ≤ b ∧ b ≤ 0xf3 then some (3, 0x80, 0xbf)
  else if b = 0xf4 then some (3, 0x80, 0x8f)
  else none

/-- The bits that a first byte gives to its character. -/
def leadBits (b : UInt8) (more : Nat) : Nat :=
  match more with
  | 0 => b.toNat
  | 1 => b.toNat % 32
  | 2 => b.toNat % 16
  | _ => b.toNat % 8

/-- Reads so many further bytes of a character; also says how much is left if they do not come. -/
def takeContinuation : Nat → UInt8 → UInt8 → Nat → List UInt8 → Option Nat × List UInt8
  | 0, _, _, acc, rest => (some acc, rest)
  | more + 1, lo, hi, acc, b :: rest =>
    if lo ≤ b ∧ b ≤ hi then takeContinuation more 0x80 0xbf (acc * 64 + b.toNat % 64) rest
    else (none, b :: rest)
  | _ + 1, _, _, _, [] => (none, [])

/-- The first character of some bytes, unless they do not begin with one, and what follows. -/
def takeChar (b : UInt8) (rest : List UInt8) : Option Char × List UInt8 :=
  match continuation? b with
  | none => (none, rest)
  | some (more, lo, hi) =>
    let (code, rest) := takeContinuation more lo hi (leadBits b more) rest
    (code.map Char.ofNat, rest)

/-- The characters of bytes; `none` stands for what is no character. -/
def utf8Chars : Nat → List UInt8 → List (Option Char)
  | _, [] => []
  | 0, _ :: _ => []
  | fuel + 1, b :: rest =>
    let (c, rest) := takeChar b rest
    c :: utf8Chars fuel rest

/-- The text of bytes that are all characters. -/
def utf8Text? (bytes : List UInt8) : Option String :=
  ((utf8Chars bytes.length bytes).mapM id).map String.ofList

/-- The text of bytes, with replacements for what is no character. -/
def utf8Lossy (bytes : List UInt8) : String :=
  String.ofList ((utf8Chars bytes.length bytes).map fun c => c.getD '\ufffd')

end SlotFrame
