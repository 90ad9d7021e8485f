import SlotFrame.Config.Duration
import SlotFrame.Schema.Read
import SlotFrame.Source.Basic

/-! # Loading documents

A document is read within a time limit and decoded by the format of its location, which it remembers
as its source file.

Main definition: `loadDocument`. -/

namespace SlotFrame

/-- The document that a delivery holds. -/
def documentOf (timeout : Duration) (l : Location) : Delivery → Result Schema
  | .stalled => .error (.importFailed l.render ("timed out after " ++ timeout.brief))
  | .failed f => .error f
  | .text s =>
    match Schema.read l.format s with
    | .ok d => .ok { d with sourceFile := some l.render }
    | .error (.parse message) => .error (.parse (message ++ " in " ++ l.render))
    | .error f => .error f

/-- Loads the document at a location. -/
def loadDocument {m : Type → Type} [Monad m] (source : Source m) (timeout : Duration)
    (l : Location) : m (Result Schema) := do
  return documentOf timeout l (← source.deliver l)

end SlotFrame
