import SlotFrame.Command.Render
import SlotFrame.Data.Utf8
import SlotFrame.Source.FileTree

/-! # The command at a terminal

Reads the arguments, prints the schema or writes it to a file, and tells what went wrong. Addresses
of the web cannot be reached from here. -/

namespace SlotFrame.Terminal

/-- The wording of a fault of the operating system. -/
def systemMessage : IO.Error → String
  | .noFileOrDirectory .. => FileFault.missing.message
  | .inappropriateType .. => FileFault.notDirectory.message
  | e => toString e

/-- The text of a file, or why there is none. -/
def fileText (path : String) : IO (Except String String) := do
  try
    let bytes ← IO.FS.readBinFile path
    match utf8Text? bytes.toList with
    | some s => return .ok s
    | none => return .error FileFault.notText.message
  catch e => return .error (systemMessage e)

/-- Whether there is anything at a path. -/
def fileExists (path : String) : IO Bool := do
  try
    let _ ← IO.FS.realPath path
    return true
  catch _ => return false

/-- The files of the machine, without the web. -/
def surroundings : Surroundings IO where
  fileText := fileText
  source := Source.ofFilesAndWeb fileExists fileText Web.unreachable
  web := Web.unreachable

/-- How the command is used. -/
def usage : String :=
  "Usage: slotframe [OPTIONS] <SCHEMA>\n\n" ++
  "  --no-merge-imports            keep imports apart\n" ++
  "  --no-materialize-attributes   keep induced slots out of the attributes\n" ++
  "  -f, --format <json|yaml>      format to be printed\n" ++
  "  -o, --output <FILE>           file to be written\n" ++
  "  -c, --config <FILE>           configuration in TOML or YAML\n" ++
  "  -v, --verbose                 tell more\n" ++
  "  -h, --help                    print this help\n" ++
  "  -V, --version                 print the version"

/-- What is told of arguments that cannot be followed. -/
def complaint : Stop → String
  | .help => usage
  | .version => "slotframe 1.0.0"
  | .missingArgument => "error: a schema is missing\n\n" ++ usage
  | .unknownArgument => "error: unexpected argument\n\n" ++ usage
  | .invalidValue => "error: a value is missing or invalid\n\n" ++ usage
  | .conflict => "error: an argument is given twice\n\n" ++ usage
  | .tooManyValues => "error: a switch takes no value\n\n" ++ usage

/-- Renders a schema and puts it where it belongs. -/
def run (a : Arguments) : IO UInt32 := do
  match ← a.render surroundings ∅ with
  | .error f =>
    IO.eprintln ("Error: " ++ f.message)
    return 1
  | .ok text =>
    match a.output with
    | none =>
      IO.println text
      return 0
    | some path =>
      try
        IO.FS.writeFile path text
        return 0
      catch e =>
        IO.eprintln ("Error: " ++ systemMessage e)
        return 1

/-- Does what the arguments say. -/
def start (args : List String) : IO UInt32 := do
  match Arguments.read args with
  | .ok a => run a
  | .error stop =>
    if stop = .help ∨ stop = .version then
      IO.println (complaint stop)
      return 0
    else
      IO.eprintln (complaint stop)
      return 2

end SlotFrame.Terminal

/-- The command. -/
def main (args : List String) : IO UInt32 := SlotFrame.Terminal.start args
