import SlotFrame.Data.Letters
import SlotFrame.Data.Text
import SlotFrame.Location.Percent
import SlotFrame.Location.Punycode

/-! # Hosts

The host of a URL is a domain name, an address of version four or six, or in a URL without a scheme
of its own rules any text. A domain is written in lower case and in ASCII; one whose last label is a
number is an address.

Main definitions: `Host.domain`, `Host.special`, `Host.general`. -/

namespace SlotFrame

/-- Why a text is no URL. -/
inductive UrlFault where
  | emptyHost
  | internationalName
  | port
  | addressV4
  | addressV6
  | domainCharacter
  | noBase
  | rootlessBase
  deriving DecidableEq, Repr

/-- The wording of a fault. -/
def UrlFault.message : UrlFault → String
  | emptyHost => "empty host"
  | internationalName => "invalid international domain name"
  | port => "invalid port number"
  | addressV4 => "invalid IPv4 address"
  | addressV6 => "invalid IPv6 address"
  | domainCharacter => "invalid domain character"
  | noBase => "relative URL without a base"
  | rootlessBase => "relative URL with a cannot-be-a-base base"

namespace Host

/-! ### Domain names -/

/-- Characters that no domain holds. -/
def isDenied (c : Char) : Bool :=
  c.toNat ≤ 0x20 || c.toNat = 0x7f || "%#/:<>?@[\\]^|".toList.contains c

/-- What a character of a domain is written as; full stops of other scripts divide labels too. -/
def mapped (c : Char) : List Char :=
  if c = '\xad' ∨ c = '\u200b' ∨ c = '\u2060' ∨ c = '\ufeff' then []
  else if c = '\u3002' ∨ c = '\uff0e' ∨ c = '\uff61' then ['.']
  else [lowerChar c]

/-- Whether a mapped character may stand in a label. -/
def isLabelChar (c : Char) : Bool :=
  if c.toNat < 0x80 then ! isDenied c else isLetter c || isNumeral c || isMark c

/-- A label in ASCII. -/
def asciiLabel (label : List Char) : Option (List Char) :=
  if ! label.all isLabelChar || (label.head?.map isMark).getD false then none
  else match label with
    | 'x' :: 'n' :: '-' :: '-' :: rest => do
      let decoded ← Punycode.decode? rest
      if decoded.all (fun c => c.toNat < 0x80) || ! decoded.all isLabelChar ||
          Punycode.encode decoded ≠ rest then none
      else some label
    | _ =>
      if label.all fun c => c.toNat < 0x80 then some label
      else some ('x' :: 'n' :: '-' :: '-' :: Punycode.encode label)

/-- A domain in ASCII. -/
def asciiDomain (cs : List Char) : Option (List Char) := do
  let labels ← (splitAll '.' (cs.flatMap mapped)).mapM asciiLabel
  return (['.'] : List Char).intercalate labels

/-! ### Addresses of version four -/

/-- A number of an address: decimal, octal after a zero, hexadecimal after `0x`. -/
def addressNumber? (cs : List Char) : Option Nat :=
  let (base, digits) := match cs with
    | '0' :: 'x' :: rest => (16, rest)
    | '0' :: 'X' :: rest => (16, rest)
    | '0' :: c :: rest => (8, c :: rest)
    | _ => (10, cs)
  if cs.isEmpty then none
  else digits.foldl (fun acc c => do
    let n ← acc
    let d ← Percent.digitValue? c
    if d < base then some (n * base + d) else none) (some 0)

/-- The labels of a domain without an empty last one. -/
def labels (cs : List Char) : List (List Char) :=
  match (splitAll '.' cs).reverse with
  | [] :: l :: rest => (l :: rest).reverse
  | ls => ls.reverse

/-- Whether the last label of a domain is a number. -/
def endsInNumber (cs : List Char) : Bool :=
  match (labels cs).getLast? with
  | some l => (! l.isEmpty && l.all Char.isDigit) || (addressNumber? l).isSome
  | none => false

/-- An address of version four: up to four numbers, the last of which fills what is left. -/
def addressV4 (cs : List Char) : Except UrlFault String :=
  let parts := labels cs
  match parts.mapM addressNumber? with
  | none => .error .addressV4
  | some numbers =>
    let front := numbers.dropLast
    let last := numbers.getLast?.getD 0
    if 4 < numbers.length ∨ front.any (255 < ·) ∨ Nat.pow 256 (4 - front.length) ≤ last then
      .error .addressV4
    else
      let value := front.zipIdx.foldl (fun sum (n, i) => sum + n * Nat.pow 256 (3 - i)) last
      .ok (".".intercalate ([3, 2, 1, 0].map fun i => toString (value / Nat.pow 256 i % 256)))

/-! ### Addresses of version six -/

/-- A piece of an address of version six: one to four hexadecimal digits. -/
def piece? (cs : List Char) : Option Nat :=
  if cs.isEmpty ∨ 4 < cs.length then none
  else cs.foldl (fun acc c => do return (← acc) * 16 + (← Percent.digitValue? c)) (some 0)

/-- A number of an address of version four at the end of one of version six. -/
def octet? (cs : List Char) : Option Nat :=
  match cs with
  | '0' :: _ :: _ => none
  | [] => none
  | _ =>
    if cs.all Char.isDigit then
      let n := cs.foldl (fun n c => n * 10 + (c.toNat - 48)) 0
      if n ≤ 255 then some n else none
    else none

/-- The pieces between colons; the last may be an address of version four, if that is allowed. -/
def pieces? (allowsTail : Bool) : List (List Char) → Option (List Nat)
  | [] => some []
  | [cs] =>
    if allowsTail ∧ '.' ∈ cs then do
      match ← (splitAll '.' cs).mapM octet? with
      | [a, b, c, d] => some [256 * a + b, 256 * c + d]
      | _ => none
    else return [← piece? cs]
  | cs :: rest => do return (← piece? cs) :: (← pieces? allowsTail rest)

/-- The pieces of a text, none if it is empty. -/
def sidePieces? (allowsTail : Bool) (cs : List Char) : Option (List Nat) :=
  if cs.isEmpty then some [] else pieces? allowsTail (splitAll ':' cs)

/-- What stands before and after the first pair of colons. -/
def splitAtGap : List Char → Option (List Char × List Char)
  | ':' :: ':' :: rest => some ([], rest)
  | c :: rest => (splitAtGap rest).map fun (before, after) => (c :: before, after)
  | [] => none

/-- The eight pieces of an address of version six. -/
def eightPieces? (cs : List Char) : Option (List Nat) :=
  match splitAtGap cs with
  | none => do
    let ps ← sidePieces? true cs
    if ps.length = 8 then some ps else none
  | some (before, after) => do
    let front ← sidePieces? false before
    let back ← sidePieces? true after
    if front.length + back.length < 8 then
      some (front ++ List.replicate (8 - front.length - back.length) 0 ++ back)
    else none

/-- How many pieces are zero from each place on. -/
def zeroRuns : List Nat → List Nat
  | [] => []
  | p :: rest =>
    let runs := zeroRuns rest
    (if p = 0 then 1 + runs.headD 0 else 0) :: runs

/-- The place and the length of the first longest run of at least two zero pieces. -/
def longestGap (ps : List Nat) : Option (Nat × Nat) :=
  (zeroRuns ps).zipIdx.foldl (fun best (n, i) =>
    if 1 < n ∧ (best.map Prod.snd).getD 0 < n then some (i, n) else best) none

/-- The hexadecimal digits of a piece. -/
def hexPiece (n : Nat) : String := String.ofList (Nat.toDigits 16 n)

/-- Pieces with colons between them, the longest run of zeros left out. -/
def renderV6 (ps : List Nat) : String :=
  match longestGap ps with
  | none => ":".intercalate (ps.map hexPiece)
  | some (i, n) => ":".intercalate ((ps.take i).map hexPiece) ++ "::" ++
      ":".intercalate ((ps.drop (i + n)).map hexPiece)

/-- An address of version six between brackets. -/
def bracketed (cs : List Char) : Except UrlFault String :=
  match cs.getLast?, eightPieces? cs.dropLast with
  | some ']', some ps => .ok ("[" ++ renderV6 ps ++ "]")
  | _, _ => .error .addressV6

/-! ### Hosts -/

/-- A domain, or the address that it writes. -/
def domain (cs : List Char) : Except UrlFault String :=
  match utf8Text? (Percent.decode cs) with
  | none => .error .internationalName
  | some text =>
    match asciiDomain text.toList with
    | none => .error .internationalName
    | some [] => .error .emptyHost
    | some name =>
      if endsInNumber name then addressV4 name else .ok (String.ofList name)

/-- The host of a URL of a special scheme. -/
def special (cs : List Char) : Except UrlFault String :=
  match cs with
  | '[' :: rest => bracketed rest
  | _ => domain cs

/-- The host of any other URL. -/
def general (cs : List Char) : Except UrlFault String :=
  match cs with
  | '[' :: rest => bracketed rest
  | _ =>
    if cs.any fun c => "\x00\t\n\r #/:<>?@[\\]^|".toList.contains c then .error .domainCharacter
    else .ok (String.ofList (Percent.encode Percent.control cs))

end Host

end SlotFrame
