import SlotFrame.Data.Table
import SlotFrame.Fault
import SlotFrame.Location.Basic

/-! # Sources of documents

A source says where documents exist and delivers their texts. It works in a monad of its own, so that
one source may read files while another is a fixed function.

Main definitions: `Source`, `Source.ofTable`. -/

namespace SlotFrame

/-- What comes of asking for a text. -/
inductive Delivery where
  | text (s : String)
  | failed (f : Fault)
  /-- No answer, however long one waits. -/
  | stalled
  deriving DecidableEq, Repr

/-- Where documents come from. -/
structure Source (m : Type → Type) where
  contains : Location → m Bool
  deliver : Location → m Delivery

namespace Source

/-- Documents held in memory under their locations. -/
def ofTable {m : Type → Type} [Monad m] (docs : Table Delivery) : Source m where
  contains l := pure (docs.contains l.render)
  deliver l := pure <| match docs.get? l.render with
    | some d => d
    | none => .failed (.importFailed l.render "not in memory")

end Source

end SlotFrame
