import SlotFrame.Namespace.Registry
import SlotFrame.Registry.Prefixes

/-! # Views

A view holds a registry under a configuration and remembers what it has derived from it. Whatever is
remembered belongs to an epoch; every change of the registry begins a new one, in which nothing of
the old is recalled.

Main definitions: `View`, `View.recalled`, `View.keep`, `View.advance`, `View.editPrimary`. -/

namespace SlotFrame

/-- Derived definitions, and the epoch that they belong to. -/
structure Memo where
  epoch : Nat := 0
  /-- Induced slots, each under its name and the class that it is seen from. -/
  slots : List ((String × Option String) × SlotDef) := []
  types : Table TypeDef := ∅
  classes : Table ClassDef := ∅
  owners : Option (Table String) := none
  namespaces : Option Namespaces := none
  deriving Inhabited, Repr

/-- What is left in an epoch: all, or nothing of another one. -/
def Memo.sync (m : Memo) (epoch : Nat) : Memo := if m.epoch = epoch then m else { epoch }

/-- A registry under a configuration. -/
structure View where
  registry : Registry
  config : Config := {}
  /-- Whether all imports have been loaded. -/
  loaded : Bool := false
  /-- How often the registry has been changed. -/
  epoch : Nat := 0
  memo : Memo := {}
  deriving Inhabited, Repr

namespace View

/-- A view of one document. -/
def ofSchema (s : Schema) (config : Config) : View := { registry := .ofSchema s, config }

/-- A view of one document under a configuration that can work. -/
def create (s : Schema) (config : Config) : Result View := do
  config.check
  return ofSchema s config

/-- What is remembered of this epoch. -/
def recalled {α : Type} (v : View) (read : Memo → Option α) : Option α :=
  if v.memo.epoch = v.epoch then read v.memo else none

/-- Remembers something for this epoch. -/
def keep (v : View) (write : Memo → Memo) : View := { v with memo := write (v.memo.sync v.epoch) }

/-- Begins a new epoch. -/
def advance (v : View) : View := { v with epoch := v.epoch + 1 }

/-- Begins a new epoch with another registry. -/
def replace (v : View) (r : Registry) : View := { v with registry := r }.advance

/-- Changes the primary document. -/
def editPrimary (v : View) (f : Schema → Schema) : View := v.replace (v.registry.editPrimary f)

/-- The primary document. -/
def primary (v : View) : Schema := v.registry.primary

end View

/-! ### Questions -/

/-- A question to a view, which may remember the answer. -/
abbrev Asking := ExceptT Fault (StateM View)

namespace View

/-- Puts a question. -/
def ask {α : Type} (v : View) (q : Asking α) : Result α × View := StateT.run (ExceptT.run q) v

/-- A question to the registry. -/
def ofRegistry {α : Type} (f : Registry → Result α) : Asking α := do
  match f (← get).registry with
  | .ok a => return a
  | .error fault => throw fault

/-- Recalls an answer, or else works it out and keeps it; faults are not kept. -/
def remember {α : Type} (read : Memo → Option α) (write : α → Memo → Memo) (work : Asking α) :
    Asking α := do
  match (← get).recalled read with
  | some a => return a
  | none =>
    let a ← work
    modify fun v => v.keep (write a)
    return a

end View

end SlotFrame
