import StockFlow.Command.Invocation
import StockFlow.Dialect.Config
import StockFlow.Model.Check
import StockFlow.Model.Edit
import StockFlow.Model.Export

/-! What a command answers, given the contents of files. -/
namespace StockFlow.Command

inductive Failure where
  /-- The file with the options cannot be read, or holds no options. -/
  | config (path : Text)
  | model (path : Text)
  | load (path : Text) (error : LoadFailure)
  | noVariable (name : Text)
  | library (error : Error)

def Failure.message : Failure → String
  | config path => s!"config '{path.string}': no options"
  | model path => s!"model '{path.string}': cannot be read"
  | load path error => s!"model '{path.string}': {error.message}"
  | noVariable name => s!"no variable named '{name.string}'"
  | library error => error.message

/-- What goes to standard output, and what to a file. -/
structure Output where
  standard : Text
  file : Option (Text × Text)

namespace Output

def display (t : Text) : Output := ⟨t, none⟩

def write (path : Option Text) (t : Text) : Output :=
  match path with
  | some path => ⟨[], some (path, t)⟩
  | none => display t

end Output

/-- The contents of the files that can be read. -/
abbrev Files := Text → Option Text

def loadDialect (files : Files) (config : Option Text) : Except Failure Dialect := do
  let options ←
    match config with
    | none => pure Options.standard
    | some path =>
      match (files path).bind fun contents => (Json.parse? contents).bind Options.ofJson? with
      | some options => pure options
      | none => throw (.config path)
  options.compile.mapError .library

def roleLine (r : Record) : Text :=
  let role := r.role.name.toList
  role ++ List.replicate (10 - role.length) ' ' ++ ' ' :: r.name ++ ['\n']

/-- What the action answers on a model that was read from `source`. -/
def Action.run (source : Text) (m : Model) : Action → Except Failure Output
  | roles => .ok (.display (m.records.flatMap roleLine))
  | deps name =>
    match m.graph.find? name with
    | none => .error (.noVariable name)
    | some r =>
      .ok (.display (
        "parents: ".toList ++ Text.joinWith ", " r.parents.items ++
          "\nchildren: ".toList ++ Text.joinWith ", " r.children.items ++ ['\n']))
  | check => do
    (m.checkText source).mapError .library
    m.checkEdges.mapError .library
    return .display s!"ok: {m.graph.records.size} variables\n".toList
  | writeJson output => .ok (.write output (Json.pretty 0 m.toJson ++ ['\n']))
  | edit name equation units comment output => do
    let edited ← (m.edit name ⟨equation, units, comment⟩).mapError .library
    return .write output edited.text

def Invocation.run (files : Files) (i : Invocation) : Except Failure Output := do
  let dialect ← loadDialect files i.config
  match files i.path with
  | none => throw (.model i.path)
  | some source =>
    let m ← (Model.load dialect source).mapError (.load i.path)
    i.action.run source m

end StockFlow.Command
