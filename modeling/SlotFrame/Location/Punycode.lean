/-! # Punycode

Texts beyond ASCII as ASCII: the ASCII characters, a hyphen, and for every other character, in
ascending order, how far the insertion point has moved since the last one.

Main definitions: `Punycode.encode`, `Punycode.decode?`. -/

namespace SlotFrame.Punycode

/-- The character of a digit in base 36. -/
def digitChar (d : Nat) : Char := if d < 26 then Char.ofNat (97 + d) else Char.ofNat (22 + d)

/-- The digit that a character stands for. -/
def digitValue? (c : Char) : Option Nat :=
  if 'a' ≤ c ∧ c ≤ 'z' then some (c.toNat - 97)
  else if 'A' ≤ c ∧ c ≤ 'Z' then some (c.toNat - 65)
  else if '0' ≤ c ∧ c ≤ '9' then some (c.toNat - 22)
  else none

/-- The threshold of the digit at a weight step. -/
def threshold (k bias : Nat) : Nat := if k ≤ bias then 1 else if bias + 26 ≤ k then 26 else k - bias

/-- Shrinks a move until it is small; also says by how many steps. -/
def shrink : Nat → Nat → Nat → Nat × Nat
  | 0, delta, k => (delta, k)
  | fuel + 1, delta, k => if 455 < delta then shrink fuel (delta / 35) (k + 36) else (delta, k)

/-- The bias after a move, for so many characters. -/
def adapt (delta count : Nat) (first : Bool) : Nat :=
  let delta := if first then delta / 700 else delta / 2
  let (delta, k) := shrink (delta + delta / count) (delta + delta / count) 0
  k + 36 * delta / (delta + 38)

/-- The digits of a move, least weight first. -/
def writeMove (bias : Nat) : Nat → Nat → Nat → List Char
  | 0, _, _ => []
  | fuel + 1, k, q =>
    let t := threshold k bias
    if q < t then [digitChar q]
    else digitChar (t + (q - t) % (36 - t)) :: writeMove bias fuel (k + 36) ((q - t) / (36 - t))

/-- An encoding under way: what is written, the move so far, the bias and how many are placed. -/
structure Writing where
  out : List Char
  delta : Nat
  bias : Nat
  placed : Nat

/-- Passes a character while all characters of one code point are placed. -/
def Writing.pass (w : Writing) (ascii code : Nat) (c : Char) : Writing :=
  if c.toNat < code then { w with delta := w.delta + 1 }
  else if c.toNat = code then
    { out := w.out ++ writeMove w.bias (w.delta + 1) 36 w.delta
      delta := 0
      bias := adapt w.delta (w.placed + 1) (w.placed = ascii)
      placed := w.placed + 1 }
  else w

/-- Places the characters of the code points that are left, in ascending order. -/
def place (cs : List Char) (ascii : Nat) : List Nat → Nat → Writing → Writing
  | [], _, w => w
  | code :: rest, next, w =>
    let w := { w with delta := w.delta + (code - next) * (w.placed + 1) }
    let w := cs.foldl (fun w c => w.pass ascii code c) w
    place cs ascii rest (code + 1) { w with delta := w.delta + 1 }

/-- The ASCII form of a text. -/
def encode (cs : List Char) : List Char :=
  let ascii := cs.filter fun c => c.toNat < 0x80
  let codes := ((cs.filter fun c => 0x80 ≤ c.toNat).map Char.toNat).mergeSort.eraseDups
  let w := place cs ascii.length codes 0x80 ⟨[], 0, 72, ascii.length⟩
  (if ascii.isEmpty then [] else ascii ++ ['-']) ++ w.out

/-- Reads the digits of a move; answers where the insertion point is and what follows. -/
def readMove (bias : Nat) : Nat → Nat → Nat → List Char → Option (Nat × List Char)
  | _, _, _, [] => none
  | k, weight, i, c :: rest => do
    let d ← digitValue? c
    let t := threshold k bias
    if d < t then return (i + d * weight, rest)
    else readMove bias (k + 36) (weight * (36 - t)) (i + d * weight) rest

/-- Inserts the characters whose moves are left. -/
def insertMoves : Nat → Nat → Nat → Nat → List Char → List Char → Option (List Char)
  | _, _, _, _, out, [] => some out
  | 0, _, _, _, _, _ :: _ => none
  | fuel + 1, bias, code, i, out, c :: rest => do
    let (moved, rest) ← readMove bias 36 1 i (c :: rest)
    let count := out.length + 1
    let code := code + moved / count
    let spot := moved % count
    if code.isValidChar then
      insertMoves fuel (adapt (moved - i) count (i = 0)) code (spot + 1)
        (out.take spot ++ Char.ofNat code :: out.drop spot) rest
    else none

/-- The text of an ASCII form. -/
def decode? (cs : List Char) : Option (List Char) :=
  let tail := (cs.reverse.takeWhile (· ≠ '-')).reverse
  let ascii := cs.take (cs.length - tail.length - 1)
  if cs.any fun c => 0x80 ≤ c.toNat then none
  else insertMoves cs.length 72 0x80 0 ascii tail

end SlotFrame.Punycode
