import StockFlow.Report
import StockFlow.Text.Quoted

/-! What can go wrong, by cause. Each kind of error keeps the values that its wording needs; the
code under which it is reported and the wording itself are functions of the cause. -/
namespace StockFlow

/-- A call whose arguments cannot be taken apart, at byte offsets into its equation. -/
structure CallError where
  start : Nat
  stop : Nat
deriving DecidableEq

namespace CallError

def code (_ : CallError) : Code := .malformedArgument

def message (e : CallError) : String := s!"{e.start}:{e.stop}:{e.code.name}"

end CallError

/-- A parent that names no variable, with the variable whose parent it is. -/
structure DanglingEdge where
  source : Text
  target : Text
deriving DecidableEq

inductive Error where
  | emptyFunctionName
  | boundaryCharacter (c : Char)
  | narrowLines (least given : Nat)
  | emptyDocument
  | noBoundary
  /-- A declaration at this line index has no blank line after it. -/
  | unterminatedBlock (line : Nat) (text : Text)
  | noVariable (name : Text)
  | badArguments (name equation : Text) (cause : CallError)
  | roundTripMismatch (line : Nat) (expected written : Text)
  | dangling (references : List DanglingEdge)
deriving DecidableEq

namespace Error

def origin : Error → Origin
  | emptyFunctionName | boundaryCharacter _ | narrowLines .. | emptyDocument | noBoundary
  | unterminatedBlock .. => .importing
  | noVariable _ | badArguments .. | roundTripMismatch .. | dangling _ => .model

def code : Error → Code
  | emptyFunctionName | boundaryCharacter _ | narrowLines .. => .badOptions
  | emptyDocument | noBoundary => .malformedDocument
  | unterminatedBlock .. => .unterminatedBlock
  | noVariable _ => .doesNotExist
  | badArguments .. => .malformedArgument
  | roundTripMismatch .. => .roundTripMismatch
  | dangling _ => .danglingReference

def details : Error → String
  | emptyFunctionName => "stock and placeholder function names must not be empty"
  | boundaryCharacter c => s!"'{c}' cannot mark the end of the variable section"
  | narrowLines least given => s!"max_line_width must be at least {least}, got {given}"
  | emptyDocument => "the document is empty"
  | noBoundary => "no section boundary line ends the variable definitions"
  | unterminatedBlock line text =>
    s!"{(LineSpan.mk line (line + 1)).label}: " ++
      s!"no blank line ends the block starting '{text.string}'"
  | noVariable name => s!"no variable named '{name.string}'"
  | badArguments name equation cause =>
    s!"'{name.string}': cannot split the arguments of '{equation.string}' ({cause.message})"
  | roundTripMismatch line expected written =>
    s!"{(LineSpan.mk line (line + 1)).label} differs: " ++
      s!"expected {expected.quoted.string}, wrote {written.quoted.string}"
  | dangling references =>
    let arrows := references.map fun r => s!"'{r.source.string}' -> '{r.target.string}'"
    s!"{references.length} undefined: " ++ String.intercalate ", " arrows

def report (e : Error) : Report := ⟨e.origin, e.code, some e.details⟩

def message (e : Error) : String := e.report.message

end Error

/-- What is wrong with the lines of one variable. -/
inductive BlockFault where
  | emptyBlock
  | noName (line : Text)
  | noUnits
  | noComment
  | badArguments (equation : Text)
  /-- The name is taken by the block at these lines. -/
  | duplicate (first : LineSpan)
deriving DecidableEq

namespace BlockFault

def code : BlockFault → Code
  | badArguments _ => .malformedArgument
  | duplicate _ => .duplicateName
  | _ => .malformedVariableBlock

def details : BlockFault → String
  | emptyBlock => "empty block"
  | noName line => s!"no variable name in '{line.string}'"
  | noUnits => "no units line starting with '~'"
  | noComment => "no comment line starting with '~'"
  | badArguments equation => s!"cannot split the arguments of '{equation.string}'"
  | duplicate first => s!"already defined at {first.label}"

end BlockFault

structure BlockError where
  name : Option Text
  lines : LineSpan
  fault : BlockFault
deriving DecidableEq

namespace BlockError

def code (e : BlockError) : Code := e.fault.code

def report (e : BlockError) : BlockReport :=
  ⟨e.name, e.lines, e.code, some e.fault.details⟩

def message (e : BlockError) : String := e.report.message

end BlockError

/-- A document without the right sections is given up at once; faults inside variable blocks are
all collected, in the order of the blocks. -/
inductive LoadFailure where
  | document (error : Error)
  | blocks (errors : List BlockError)
deriving DecidableEq

namespace LoadFailure

def codes : LoadFailure → List Code
  | document error => [error.code]
  | blocks errors => errors.map BlockError.code

def message : LoadFailure → String
  | document error => error.message
  | blocks errors =>
    s!"{errors.length} variable(s) have errors" ++
      String.join (errors.map fun e => s!"\n  {e.message}")

end LoadFailure

end StockFlow
