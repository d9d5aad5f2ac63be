import ShaderGraph.Catalog
import ShaderGraph.CommandLine.Options
import ShaderGraph.Demo
import ShaderGraph.Report
import ShaderGraph.Saved.Document
import ShaderGraph.Saved.Settings

/-!
# A run of the command line

A run reads settings and a document, saves the graph if that is asked for, and reports on the
material at the root. Only the reading and the saving reach files; the rest is a function of what
was read. What a path leads to is left to a `FileSystem`.

## Main definitions

* `FileSystem` — access to files by path
* `RunError` — why a run failed
* `Options.library`, `Options.evaluator` — what a run evaluates with
* `materialReport`, `printed` — what a run tells about a graph
* `run` — a run over any file system
* `Outcome`, `execute` — what the program answers to its arguments
-/

namespace ShaderGraph.CommandLine

/-- Access to files by path. Where the system refuses an access it says why. -/
structure FileSystem (m : Type → Type) where
  /-- Whether something is found under a path. -/
  exists? : (path : String) → ExceptT String m Bool
  read : (path : String) → ExceptT String m String
  write : (path text : String) → ExceptT String m Unit

/-- Why a run failed. -/
inductive RunError where
  /-- The system refused an access to a file, for the reason that it gave. -/
  | file (reason : String)
  | document (e : SavedTextError)
  | settings (e : SavedTextError)
  /-- The graph with the given name has no root. -/
  | noRoot (name : String)
  deriving DecidableEq, Repr

/-- The message about a run that failed. -/
def RunError.message : RunError → String
  | file reason => "IO error: " ++ reason
  | document e => "Document error: " ++ e.message "Document"
  | settings e => "Settings error: " ++ e.message "Settings"
  | noRoot name => "Graph '" ++ name ++ "' has no material output node"

/-- The path of the settings that apply where none are named. -/
def defaultSettingsPath : String := "matgraph.ron"

/-- The settings of a text that was read for them. -/
def parseSettings (s : String) : Except RunError GraphSettings :=
  (GraphSettings.ofText s).mapError .settings

/-- The document of a text that was read for it. -/
def parseDocument (s : String) : Except RunError GraphDocument :=
  (GraphDocument.ofText s).mapError .document

/-- The textures of a run: the built-in one and those that the options add. -/
def Options.library (o : Options) : TextureLibrary :=
  o.textures.foldl (fun t e => t.insert e.1 e.2) TextureLibrary.builtin

/-- The evaluator of a run. -/
def Options.evaluator (o : Options) (settings : GraphSettings) : Evaluator where
  registry := .material
  textureUrl? := o.library.get?
  settings := settings.evaluation

/-- The report on the material at the root of a graph, with its pending operations carried out. -/
def materialReport (o : Options) (settings : GraphSettings) (g : Graph) (root : NodeId) : Report :=
  let r := (Report.ofGraph (o.evaluator settings) g root).compose
  if o.showShader then r.withShader g root else r

/-- The text that a run prints about a graph. -/
def printed (o : Options) (settings : GraphSettings) (g : Graph) : Except RunError String :=
  match g.root with
  | none => .error (.noRoot g.name)
  | some root =>
    let r := materialReport o settings g root
    .ok (if o.json then r.toJson.toText ++ "\n" else r.toText)

section

variable {m : Type → Type} [Monad m]

/-- Where the settings of a run are read: under the path named, else under the default one if
something is found there. -/
def settingsPath? (fs : FileSystem m) (o : Options) : ExceptT RunError m (Option String) := do
  match o.settings with
  | some path => return some path
  | none =>
    let found ← (fs.exists? defaultSettingsPath).adapt .file
    return if found then some defaultSettingsPath else none

/-- The settings of a run; where none are read, the standard ones. -/
def readSettings (fs : FileSystem m) (o : Options) : ExceptT RunError m GraphSettings := do
  match ← settingsPath? fs o with
  | some path => parseSettings (← (fs.read path).adapt .file)
  | none => return .standard

/-- The graph of a run: that of the document named, else the demonstration. -/
def readGraph (fs : FileSystem m) (ids : Demo.Numbering) (o : Options) (settings : GraphSettings) :
    ExceptT RunError m Graph := do
  match o.document with
  | some path =>
    let document ← parseDocument (← (fs.read path).adapt .file)
    return document.toGraph .material settings
  | none => return Demo.graph .material settings ids

/-- Saves the graph of a run if that is asked for. -/
def saveGraph (fs : FileSystem m) (o : Options) (g : Graph) : ExceptT RunError m Unit := do
  if let some path := o.save then
    (fs.write path g.toDocument.toText).adapt .file

/-- A run over any file system. The graph is saved even if it turns out to have no root. -/
def run (fs : FileSystem m) (ids : Demo.Numbering) (o : Options) : ExceptT RunError m String := do
  let settings ← readSettings fs o
  let g ← readGraph fs ids o settings
  saveGraph fs o g
  printed o settings g

end

/-- What the program answers to its arguments. -/
inductive Outcome where
  | success (output : String)
  /-- The run failed. -/
  | failure (e : RunError)
  /-- The arguments were not accepted. -/
  | misuse (e : UsageError)
  deriving DecidableEq, Repr

namespace Outcome

/-- The exit code of the program. -/
def exitCode : Outcome → UInt32
  | success _ => 0
  | failure _ => 1
  | misuse _ => 2

/-- What the program prints. -/
def output : Outcome → String
  | success s => s
  | failure _ | misuse _ => ""

/-- What the program complains about. -/
def complaint : Outcome → String
  | success _ => ""
  | failure e => e.message ++ "\n"
  | misuse e => e.message ++ "\n\n" ++ usage ++ "\n"

end Outcome

/-- What the program answers to its arguments, over any file system. -/
def execute {m : Type → Type} [Monad m] (fs : FileSystem m) (ids : Demo.Numbering)
    (arguments : List String) : m Outcome :=
  match Request.ofArguments arguments with
  | .error e => pure (.misuse e)
  | .ok .help => pure (.success (usage ++ "\n"))
  | .ok (.run o) => do
    match ← (run fs ids o).run with
    | .ok s => pure (.success s)
    | .error e => pure (.failure e)

end ShaderGraph.CommandLine
