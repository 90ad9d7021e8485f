import SlotFrame.Toml.Scalar
import SlotFrame.Data.Table

/-! # Tables of TOML

A document writes its tables in pieces: under headers, by dotted keys, and as elements of arrays of
tables. A table remembers how it came about, since that decides what may still be added to it.

Main definitions: `Item`, `putDotted`, `openTable`, `openElement`, `putUnder`. -/

namespace SlotFrame.Toml

/-- How a table came about. -/
inductive Origin where
  /-- As part of the path of a header. -/
  | implied
  /-- By a header of its own. -/
  | header
  /-- By a dotted key. -/
  | dotted
  deriving DecidableEq, Repr

/-- What stands under a key. -/
inductive Item where
  /-- A value to which nothing can be added. -/
  | value (t : Tree)
  | table (origin : Origin) (entries : List (String × Item))
  /-- The tables of an array, of which only the last is open. -/
  | tables (closed : List (List (String × Item))) (last : List (String × Item))
  deriving Inhabited

/-- Entries under keys. -/
abbrev Entries := List (String × Item)

/-- Puts a value under a dotted key. The table that takes the value was made by dotted keys itself,
or is the one that the key is read in. -/
def putDotted (value : Tree) : List String → Bool → Entries → Outcome Entries
  | [], _, _ => .error .malformed
  | [key], isOpen, es =>
    if isOpen ∧ (lookupKey key es).isNone then .ok (es ++ [(key, .value value)])
    else .error .repeatedKey
  | key :: rest, _, es => do
    match lookupKey key es with
    | none => return es ++ [(key, .table .dotted (← putDotted value rest true []))]
    | some (.table .header _) => .error .repeatedKey
    | some (.table origin inner) =>
      return putKey key (.table origin (← putDotted value rest (origin = .dotted) inner)) es
    | some (.tables closed last) =>
      return putKey key (.tables closed (← putDotted value rest false last)) es
    | some (.value _) => .error .malformed

/-- Changes the entries of the table that a path leads to, making the tables on the way. -/
def descend (change : Entries → Outcome Entries) : List String → Entries → Outcome Entries
  | [], es => change es
  | key :: rest, es => do
    match lookupKey key es with
    | none => return es ++ [(key, .table .implied (← descend change rest []))]
    | some (.table origin inner) =>
      return putKey key (.table origin (← descend change rest inner)) es
    | some (.tables closed last) =>
      return putKey key (.tables closed (← descend change rest last)) es
    | some (.value _) => .error .malformed

/-- Opens the table of a header, which no other header or dotted key has made. -/
def openTable (path : List String) : Entries → Outcome Entries :=
  descend (fun es =>
    match path.getLast? with
    | none => .error .malformed
    | some key => match lookupKey key es with
      | none => .ok (es ++ [(key, .table .header [])])
      | some (.table .implied inner) => .ok (dropKey key es ++ [(key, .table .header inner)])
      | some _ => .error .repeatedKey) path.dropLast

/-- Opens another element of an array of tables. -/
def openElement (path : List String) : Entries → Outcome Entries :=
  descend (fun es =>
    match path.getLast? with
    | none => .error .malformed
    | some key => match lookupKey key es with
      | none => .ok (es ++ [(key, .tables [] [])])
      | some (.tables closed last) => .ok (putKey key (.tables (closed ++ [last]) []) es)
      | some _ => .error .repeatedKey) path.dropLast

/-- Puts a value under a dotted key of the table that a path leads to. -/
def putUnder (path key : List String) (value : Tree) : Entries → Outcome Entries :=
  descend (putDotted value key (key.length = 1)) path

mutual

/-- An item as a tree. -/
def Item.toTree : Item → Tree
  | .value t => t
  | .table _ es => .record false (treeEntries es)
  | .tables closed last => .list false (treeTables closed ++ [.record false (treeEntries last)])

/-- Entries as those of a tree. -/
def treeEntries : Entries → List (Key × Tree)
  | [] => []
  | (k, i) :: rest => (.text k, i.toTree) :: treeEntries rest

/-- The tables of an array as trees. -/
def treeTables : List Entries → List Tree
  | [] => []
  | es :: rest => .record false (treeEntries es) :: treeTables rest

end

end SlotFrame.Toml
