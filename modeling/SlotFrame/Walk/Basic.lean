import SlotFrame.Json.Write
import SlotFrame.Walk.Place

/-! # Walks

A walk takes a value apart along the slots of a registry and puts it together again from what a
visitor makes of its nodes. Nodes are visited after what they hold, in the order of the value; lists
are not visited themselves.

In a record every key is a slot as it is seen from the class of the record, and its value is an
instance of the range of that slot. Where many values are expected, a record is a collection under
keys of instances. A strict walk refuses a list where one value is expected, and a single value
other than null where many are.

Main definitions: `Visitor`, `walk`. -/

namespace SlotFrame

/-- A walk that carries the state of its visitor. -/
abbrev Walk (σ : Type) := ExceptT Fault (StateM σ)

/-- What makes another node of a node at a place. -/
abbrev Visitor (σ : Type) := Value → Place → Walk σ Value

/-- The place of a key in a record: it expects what the slot of that name allows. -/
def Registry.slotPlace (r : Registry) (p : Place) (key : String) : Result Place := do
  let slot ← r.inducedSlot key p.className?
  let range ← r.slotRange slot
  return { p.child key with instanceOf := range, inCollection := slot.multivalued.getD false }

namespace Walk

variable {σ : Type}

/-- An outcome within a walk. -/
def ofResult {α : Type} (r : Result α) : Walk σ α := ExceptT.mk (pure r)

/-- Refuses what stands at a place. -/
def refuse {α : Type} (p : Place) (problem : String) : Walk σ α :=
  throw (.mismatch p.pointer (problem ++ p.description))

/-- Visits a value that holds no others. -/
def scalar (strict : Bool) (visit : Visitor σ) (p : Place) (v : Value) : Walk σ Value :=
  if p.inCollection && strict then refuse p ("expected array, found " ++ Json.compact v)
  else visit v p

end Walk

variable {σ : Type} (r : Registry) (strict : Bool) (visit : Visitor σ)

mutual

/-- Walks a value at a place. -/
def walk (p : Place) : Value → Walk σ Value
  | .list items =>
    if ! p.inCollection && strict then Walk.refuse p "array in non-multivalued context"
    else do return .list (← walkItems p.single 0 items)
  | .record fields => do
    let fields ←
      if p.inCollection then walkMembers p.single fields
      else walkFields (p.enter (.record fields)) fields
    visit (.record fields) p
  | .null => visit .null p
  | .bool b => Walk.scalar strict visit p (.bool b)
  | .number n => Walk.scalar strict visit p (.number n)
  | .text s => Walk.scalar strict visit p (.text s)

/-- Walks the items of a list from an index on. -/
def walkItems (p : Place) (index : Nat) : List Value → Walk σ (List Value)
  | [] => return []
  | v :: rest => do
    let v ← walk (p.child (toString index)) v
    return v :: (← walkItems p (index + 1) rest)

/-- Walks the members of a collection under keys. -/
def walkMembers (p : Place) : List (String × Value) → Walk σ (List (String × Value))
  | [] => return []
  | (key, v) :: rest => do
    let v ← walk (p.child key) v
    return (key, v) :: (← walkMembers p rest)

/-- Walks the fields of a record. -/
def walkFields (p : Place) : List (String × Value) → Walk σ (List (String × Value))
  | [] => return []
  | (key, v) :: rest => do
    let place ← Walk.ofResult (r.slotPlace p key)
    let v ← walk place v
    return (key, v) :: (← walkFields p rest)

end

end SlotFrame
