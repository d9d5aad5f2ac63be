/-!
# Options of the command line

The arguments of the command line are read from left to right in groups: a switch, a switch with
its value, or a document. A value is whatever follows, even if it looks like a switch. The first
group that cannot be read decides the error, and a help switch in front of it ends the reading.

## Main definitions

* `Options` — what a run is asked to do
* `Request` — what the program is asked to do
* `UsageError` — why arguments were not accepted
* `Request.ofArguments` — what arguments ask for
* `usage` — the text about the arguments
-/

namespace ShaderGraph.CommandLine

/-- The text about the arguments. -/
def usage : String :=
  "Usage: matgraph [DOCUMENT] [OPTIONS]\n\n" ++
  "Evaluates a material graph document (RON). Without a document a built-in\n" ++
  "demo graph is used.\n\n" ++
  "Options:\n" ++
  "  --settings FILE        Load graph settings (RON); defaults to ./matgraph.ron\n" ++
  "                         when that file exists\n" ++
  "  --texture ID=URL       Register a texture; may be repeated\n" ++
  "  --export               Append the exported shader text\n" ++
  "  --json                 Print the report as JSON\n" ++
  "  --save FILE            Write the graph document before evaluating\n" ++
  "  -h, --help             Show this help"

/-- What a run is asked to do. -/
structure Options where
  /-- The path of the document to evaluate; without one the demonstration is evaluated. -/
  document : Option String
  /-- The path of the settings. -/
  settings : Option String
  /-- Further textures by identifier and place of their image, in order. -/
  textures : List (String × String)
  /-- Whether the report holds the shader code. -/
  showShader : Bool
  /-- Whether the report is written as JSON. -/
  json : Bool
  /-- The path under which the document is saved. -/
  save : Option String
  deriving DecidableEq, Repr

/-- Nothing asked for. -/
def Options.none : Options := ⟨.none, .none, [], false, false, .none⟩

instance : Inhabited Options := ⟨.none⟩

/-- What the program is asked to do. -/
inductive Request where
  /-- To show the text about the arguments. -/
  | help
  | run (o : Options)
  deriving DecidableEq, Repr

/-- Why arguments were not accepted. -/
inductive UsageError where
  /-- A switch that takes a value stands at the end. -/
  | missingValue (switch : String)
  | unknownOption (argument : String)
  /-- A second document. -/
  | unexpectedArgument (argument : String)
  /-- A texture without `=`. -/
  | invalidTexture (argument : String)
  deriving DecidableEq, Repr

/-- The message about arguments that were not accepted. -/
def UsageError.message : UsageError → String
  | missingValue s => "Option '" ++ s ++ "' requires a value"
  | unknownOption s => "Unknown option '" ++ s ++ "'"
  | unexpectedArgument s => "Unexpected argument '" ++ s ++ "'"
  | invalidTexture s => "Texture must be given as ID=URL, got '" ++ s ++ "'"

/-- What an argument can ask for apart from a document. -/
inductive Switch where
  | help
  | showShader
  | json
  | settings
  | save
  | texture
  deriving DecidableEq, Repr

/-- The switch that an argument spells. -/
def Switch.ofText? : String → Option Switch
  | "-h" | "--help" => some help
  | "--export" => some showShader
  | "--json" => some json
  | "--settings" => some settings
  | "--save" => some save
  | "--texture" => some texture
  | _ => none

/-- The parts of a text before and behind its first `=`. -/
def splitTexture? (s : String) : Option (String × String) :=
  match s.toList.dropWhile (· ≠ '=') with
  | [] => none
  | _ :: url => some (String.ofList (s.toList.takeWhile (· ≠ '=')), String.ofList url)

/-- Whether an argument is meant as a switch. -/
def looksLikeSwitch (argument : String) : Bool := argument.toList.head? == some '-'

/-- What arguments ask for in addition to the options read before them. -/
def readArguments (o : Options) : List String → Except UsageError Request
  | [] => .ok (.run o)
  | argument :: rest =>
    match Switch.ofText? argument, rest with
    | some .help, _ => .ok .help
    | some .showShader, rest => readArguments { o with showShader := true } rest
    | some .json, rest => readArguments { o with json := true } rest
    | some .settings, value :: rest => readArguments { o with settings := some value } rest
    | some .save, value :: rest => readArguments { o with save := some value } rest
    | some .texture, value :: rest =>
      match splitTexture? value with
      | some t => readArguments { o with textures := o.textures ++ [t] } rest
      | none => .error (.invalidTexture value)
    | some .settings, [] | some .save, [] | some .texture, [] => .error (.missingValue argument)
    | none, rest =>
      if looksLikeSwitch argument then .error (.unknownOption argument)
      else if o.document.isSome then .error (.unexpectedArgument argument)
      else readArguments { o with document := some argument } rest

/-- What arguments ask for. -/
def Request.ofArguments (arguments : List String) : Except UsageError Request :=
  readArguments .none arguments

end ShaderGraph.CommandLine
