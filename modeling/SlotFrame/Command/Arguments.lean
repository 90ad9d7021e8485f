import SlotFrame.Data.Text

/-! # Arguments of the command

The command takes one schema, switches, and settings with a value. A setting may be written apart
from its value or together with it, and letters may share one dash; after `--` nothing is a switch
or a setting any more. A value that has been taken is looked at only when the next argument comes,
so of two faults the one that is met first is not always the one that is told.

Main definitions: `Arguments`, `Stop`, `Arguments.read`. -/

namespace SlotFrame

/-- The formats that the command writes. -/
inductive OutputFormat where
  | json
  | yaml
  deriving DecidableEq, Repr

/-- The format of a word. -/
def OutputFormat.ofLabel? (s : String) : Option OutputFormat :=
  if s = "json" then some .json else if s = "yaml" then some .yaml else none

/-- What the command is to do. -/
structure Arguments where
  schema : String
  /-- Whether imports are folded into the schema. -/
  merge : Bool := true
  /-- Whether induced slots are written out. -/
  materialize : Bool := true
  format : OutputFormat := .json
  /-- The file to be written, if it is not the terminal. -/
  output : Option String := none
  config : Option String := none
  verbose : Bool := false
  deriving DecidableEq, Repr

/-- Why the command does nothing. -/
inductive Stop where
  | help
  | version
  | missingArgument
  | unknownArgument
  | invalidValue
  /-- A switch or setting stands twice. -/
  | conflict
  /-- A switch has a value. -/
  | tooManyValues
  deriving DecidableEq, Repr

/-! ### Names -/

/-- What is on or off. -/
inductive Switch where
  | keepImports
  | keepAttributes
  | verbose
  | help
  | version
  deriving DecidableEq, Repr

/-- What has a value. -/
inductive Setting where
  | schema
  | format
  | output
  | config
  deriving DecidableEq, Repr

/-- What a name may stand for. -/
inductive Parameter where
  | switch (s : Switch)
  | setting (s : Setting)
  deriving DecidableEq, Repr

namespace Parameter

/-- The long names. -/
def long? (name : String) : Option Parameter :=
  [("no-merge-imports", switch .keepImports),
   ("no-materialize-attributes", switch .keepAttributes),
   ("format", setting .format), ("output", setting .output), ("config", setting .config),
   ("verbose", switch .verbose), ("help", switch .help), ("version", switch .version)].lookup name

/-- The names of one letter. -/
def short? (c : Char) : Option Parameter :=
  [('f', setting .format), ('o', setting .output), ('c', setting .config),
   ('v', switch .verbose), ('h', switch .help), ('V', switch .version)].lookup c

end Parameter

/-- Whether a setting takes a value: formats are words, paths are not empty. -/
def Setting.accepts (s : Setting) (value : String) : Bool :=
  match s with
  | .format => (OutputFormat.ofLabel? value).isSome
  | _ => ! value.isEmpty

/-! ### Reading -/

/-- What has been read of the arguments. -/
structure ArgumentsRead where
  switches : List Switch := []
  settings : List (Setting × String) := []
  /-- A setting that is to be settled, with its value if it has come. -/
  pending : Option (Setting × Option String) := none
  deriving DecidableEq, Repr

namespace ArgumentsRead

/-- Gives a setting a value. -/
def assign (r : ArgumentsRead) (s : Setting) (value : String) : Except Stop ArgumentsRead :=
  if (r.settings.lookup s).isSome then .error .conflict
  else if s.accepts value then .ok { r with settings := (s, value) :: r.settings }
  else .error .invalidValue

/-- Settles what is pending. -/
def settle (r : ArgumentsRead) : Except Stop ArgumentsRead :=
  match r.pending with
  | none => .ok r
  | some (_, none) => .error .invalidValue
  | some (s, some value) => { r with pending := none }.assign s value

/-- Turns a switch on. -/
def turnOn (r : ArgumentsRead) (s : Switch) : Except Stop ArgumentsRead := do
  let r ← r.settle
  match s with
  | .help => throw .help
  | .version => throw .version
  | s => if s ∈ r.switches then throw .conflict else return { r with switches := s :: r.switches }

/-- Meets the name of a setting, with a value or before one. -/
def meet (r : ArgumentsRead) (s : Setting) (value : Option String) : Except Stop ArgumentsRead := do
  let r ← r.settle
  match value with
  | some v => r.assign s v
  | none => return { r with pending := some (s, none) }

/-- Whether there is a schema already. -/
def hasSchema (r : ArgumentsRead) : Bool :=
  (r.settings.lookup .schema).isSome || r.pending.any fun p => p.1 = .schema

/-- An argument that is neither a switch nor a setting. -/
def plain (r : ArgumentsRead) (arg : String) : Except Stop ArgumentsRead := do
  if r.hasSchema then throw .unknownArgument
  else
    let r ← r.settle
    return { r with pending := some (.schema, some arg) }

/-- A long name, with what stands after its equals sign. -/
def long (r : ArgumentsRead) (name : String) (value : Option String) : Except Stop ArgumentsRead :=
  match Parameter.long? name with
  | none => .error .unknownArgument
  | some (.setting s) => r.meet s value
  | some (.switch s) => if value.isSome then .error .tooManyValues else r.turnOn s

/-- The value that stands together with a letter. -/
def attached (rest : List Char) : Option String :=
  match rest with
  | [] => none
  | '=' :: value => some (String.ofList value)
  | value => some (String.ofList value)

/-- Letters behind one dash. -/
def letters (r : ArgumentsRead) : List Char → Except Stop ArgumentsRead
  | [] => .ok r
  | c :: rest => match Parameter.short? c with
    | none => .error .unknownArgument
    | some (.setting s) => r.meet s (attached rest)
    | some (.switch s) => do (← r.turnOn s).letters rest

/-- A value for what is pending, or else a plain argument. -/
def value (r : ArgumentsRead) (arg : String) : Except Stop ArgumentsRead :=
  match r.pending with
  | some (s, none) => .ok { r with pending := some (s, some arg) }
  | _ => r.plain arg

/-- Any argument but the one that ends switches and settings. -/
def argument (r : ArgumentsRead) (arg : String) : Except Stop ArgumentsRead :=
  match arg.toList with
  | '-' :: '-' :: rest => match splitAtFirst '=' rest with
    | some (name, value) => r.long (String.ofList name) (some (String.ofList value))
    | none => r.long (String.ofList rest) none
  | '-' :: c :: rest => r.letters (c :: rest)
  | _ => r.value arg

/-- Reads arguments one after the other. -/
def readAll (r : ArgumentsRead) : List String → Except Stop ArgumentsRead
  | [] => .ok r
  | arg :: rest =>
    if arg = "--" then rest.foldlM plain r else do (← r.argument arg).readAll rest

/-- What the arguments come to. -/
def finish (r : ArgumentsRead) : Except Stop Arguments := do
  let r ← r.settle
  match r.settings.lookup .schema with
  | none => throw .missingArgument
  | some schema => return {
      schema
      merge := .keepImports ∉ r.switches
      materialize := .keepAttributes ∉ r.switches
      format := ((r.settings.lookup .format).bind OutputFormat.ofLabel?).getD .json
      output := r.settings.lookup .output
      config := r.settings.lookup .config
      verbose := .verbose ∈ r.switches }

end ArgumentsRead

/-- Reads the arguments of the command. -/
def Arguments.read (args : List String) : Except Stop Arguments := do
  let r : ArgumentsRead := {}
  (← r.readAll args).finish

end SlotFrame
