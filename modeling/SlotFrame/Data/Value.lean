import SlotFrame.Data.Table
import SlotFrame.Data.Binary64

/-! # Free-form values

The values of fields without a declared type: null, truth values, numbers, texts, lists and records
whose fields keep their order. -/

namespace SlotFrame

/-- A number: whole, or a finite binary64 word. -/
inductive Number where
  | int (i : Int)
  | float (word : UInt64)
  deriving DecidableEq, Repr

/-- A free-form value. -/
inductive Value where
  | null
  | bool (b : Bool)
  | number (n : Number)
  | text (s : String)
  | list (items : List Value)
  | record (fields : List (String × Value))
  deriving Repr, BEq, Inhabited

namespace Value

/-- The value of a field of a record. -/
def field? (v : Value) (name : String) : Option Value :=
  match v with
  | .record fields => lookupKey name fields
  | _ => none

/-- The text, if the value is one. -/
def text? : Value → Option String
  | .text s => some s
  | _ => none

/-- Null stands for an optional value that is not there. -/
def ofOption : Option Value → Value
  | some v => v
  | none => .null

end Value

end SlotFrame
