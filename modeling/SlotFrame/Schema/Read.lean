import SlotFrame.Fault
import SlotFrame.Json.Read
import SlotFrame.Yaml.Read
import SlotFrame.Schema.Decode
import SlotFrame.Schema.Normalize

/-! # Reading schema documents

A document is written in JSON or in YAML. What is read is normalized, so that every element has a
name. -/

namespace SlotFrame

/-- The formats of documents. -/
inductive Format where
  | json
  | yaml
  deriving DecidableEq, Repr

namespace Format

/-- The word for a format. -/
def label : Format → String
  | json => "json"
  | yaml => "yaml"

/-- The format that a word stands for. -/
def ofLabel? (s : String) : Option Format :=
  if s = "json" then some json
  else if s = "yaml" ∨ s = "yml" then some yaml
  else none

/-- The tree of a text, or why there is none. -/
def readTree (f : Format) (text : String) : Except String Tree :=
  match f with
  | json => (Json.read text).mapError Json.Fault.message
  | yaml => (Yaml.read text).mapError Yaml.Fault.message

/-- How a text that does not decode is reported. -/
def problem : Format → String
  | json => "JSON parsing error: "
  | yaml => "YAML parsing error: "

end Format

namespace Schema

/-- A document as it is written, without names from keys. -/
def readRaw (f : Format) (text : String) : Except String Schema := do
  let t ← f.readTree text
  (decode t).mapError Mismatch.message

/-- A document with its elements named. -/
def read (f : Format) (text : String) : Result Schema :=
  match readRaw f text with
  | .ok s => .ok s.normalize
  | .error m => .error (.parse (f.problem ++ m))

/-- A document in the format that a word stands for. -/
def readAs (format : String) (text : String) : Result Schema :=
  match Format.ofLabel? format with
  | some f => read f text
  | none => .error (.parse ("Unsupported format: " ++ format))

end Schema

end SlotFrame
