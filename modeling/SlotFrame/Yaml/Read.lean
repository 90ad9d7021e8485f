import SlotFrame.Yaml.Node

/-! # Reading YAML text

The node of a text becomes a `Tree` when every alias is replaced by the node it names. Collections
are followed for 128 levels, and aliases a hundred times for each piece of the text; what lies beyond
is `Tree.broken`, which only matters to who reads it.

Main definition: `Yaml.read`. -/

namespace SlotFrame.Yaml

/-- The anchor of a node. -/
def Node.anchor : Node → Option Nat
  | reuse _ => none
  | scalar a _ => a
  | list a _ _ => a
  | record a _ _ => a

mutual

/-- The nodes that have anchors, with their numbers, in the order of the text. -/
def Node.anchored : Node → List (Nat × Node)
  | .reuse _ => []
  | .scalar a s => match a with
    | some n => [(n, .scalar a s)]
    | none => []
  | .list a tagged xs =>
    (match a with
      | some n => [(n, .list a tagged xs)]
      | none => []) ++ anchoredItems xs
  | .record a tagged es =>
    (match a with
      | some n => [(n, .record a tagged es)]
      | none => []) ++ anchoredEntries es

/-- The nodes with anchors among the members of a list. -/
def anchoredItems : List Node → List (Nat × Node)
  | [] => []
  | n :: rest => n.anchored ++ anchoredItems rest

/-- The nodes with anchors among the entries of a record. -/
def anchoredEntries : List (Node × Node) → List (Nat × Node)
  | [] => []
  | (k, v) :: rest => k.anchored ++ v.anchored ++ anchoredEntries rest

end

/-- What aliases stand for, and how often they may still be followed. -/
structure Expansion where
  targets : List (Nat × Node)
  left : Nat

/-- The node that an alias stands for: the last one with its number. -/
def Expansion.target? (e : Expansion) (number : Nat) : Option Node :=
  (e.targets.reverse.find? fun t => t.1 = number).map Prod.snd

/-- Follows an alias, unless that was done too often. -/
def follow : Node → StateM Expansion (Option Node)
  | .reuse number => do
    let e ← get
    if e.left = 0 then return none
    set { e with left := e.left - 1 }
    return e.target? number
  | n => return some n

/-- The key of an entry. -/
def keyOf (n : Node) : StateM Expansion Key := do
  match ← follow n with
  | some (.scalar _ s) => return .scalar s
  | _ => return .other

/-- The tree of a node, with aliases followed and so many levels of collections left. -/
def expand : Nat → Node → StateM Expansion Tree
  | 0, n => do
    match ← follow n with
    | some (.scalar _ s) => return .scalar s
    | _ => return .broken
  | depth + 1, n => do
    match ← follow n with
    | some (.scalar _ s) => return .scalar s
    | some (.list _ tagged xs) => return .list tagged (← xs.mapM fun x => expand depth x)
    | some (.record _ tagged es) =>
      return .record tagged (← es.mapM fun e => do return (← keyOf e.1, ← expand depth e.2))
    | _ => return .broken

/-- A YAML text. -/
def read (text : String) : Outcome Tree := do
  let (n, pieces) ← Node.ofTokens (← Token.scan text)
  let (t, _) := Id.run ((expand 128 n).run { targets := n.anchored, left := 100 * pieces })
  return t

end SlotFrame.Yaml
