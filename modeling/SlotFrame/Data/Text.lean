/-! # Searching texts

Whether and where a text occurs in another, over characters.

Main definitions: `startsWith`, `endsWith`, `occurs`, `splitAtFirst`. -/

namespace SlotFrame

/-- Whether a text begins another. -/
def startsWith (whole start : String) : Bool := start.toList.isPrefixOf whole.toList

/-- Whether a text ends another. -/
def endsWith (whole ending : String) : Bool := ending.toList.isSuffixOf whole.toList

/-- Whether one run of characters occurs in another. -/
def occursIn (needle : List Char) : List Char → Bool
  | [] => needle.isEmpty
  | c :: rest => needle.isPrefixOf (c :: rest) || occursIn needle rest

/-- Whether a text occurs in another. -/
def occurs (needle whole : String) : Bool := occursIn needle.toList whole.toList

/-- What stands before and after the first occurrence of a character. -/
def splitAtFirst (c : Char) : List Char → Option (List Char × List Char)
  | [] => none
  | d :: rest =>
    if d = c then some ([], rest)
    else (splitAtFirst c rest).map fun (before, after) => (d :: before, after)

/-- The pieces between the occurrences of a character; one more than there are of them. -/
def splitAll (c : Char) : List Char → List (List Char)
  | [] => [[]]
  | d :: rest =>
    if d = c then [] :: splitAll c rest
    else match splitAll c rest with
      | piece :: pieces => (d :: piece) :: pieces
      | [] => [[d]]

/-- What is left of a text from a place on. -/
def dropChars (n : Nat) (s : String) : String := String.ofList (s.toList.drop n)

/-- A text without the characters of a kind at its end. -/
def trimEnd (p : Char → Bool) (cs : List Char) : List Char := (cs.reverse.dropWhile p).reverse

end SlotFrame
