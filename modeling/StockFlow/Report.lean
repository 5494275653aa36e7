import StockFlow.Text.Basic

/-! Errors as they are reported: under a code, with details in words. -/
namespace StockFlow

/-- Line indices from `start` up to `stop`, which is left out. They count from zero. -/
structure LineSpan where
  start : Nat
  stop : Nat
deriving DecidableEq

namespace LineSpan

def size (r : LineSpan) : Nat := r.stop - r.start

def isEmpty (r : LineSpan) : Bool := r.start == r.stop

/-- Readers count lines from one. -/
def label (r : LineSpan) : String :=
  if r.size ≤ 1 then s!"line {r.start + 1}" else s!"lines {r.start + 1}-{r.stop}"

end LineSpan

inductive Code where
  | doesNotExist
  | malformedDocument
  | unterminatedBlock
  | malformedVariableBlock
  | malformedArgument
  | danglingReference
  | duplicateName
  | roundTripMismatch
  | badOptions
  | engine
deriving DecidableEq

def Code.name : Code → String
  | .doesNotExist => "does_not_exist"
  | .malformedDocument => "malformed_document"
  | .unterminatedBlock => "unterminated_block"
  | .malformedVariableBlock => "malformed_variable_block"
  | .malformedArgument => "malformed_argument"
  | .danglingReference => "dangling_reference"
  | .duplicateName => "duplicate_name"
  | .roundTripMismatch => "round_trip_mismatch"
  | .badOptions => "bad_options"
  | .engine => "engine"

/-- The part of the library that reports an error. -/
inductive Origin where
  | importing
  | model
  | engine
deriving DecidableEq

def Origin.name : Origin → String
  | .importing => "ImportError"
  | .model => "ModelError"
  | .engine => "EngineError"

/-- An error as it is reported. -/
structure Report where
  origin : Origin
  code : Code
  details : Option String
deriving DecidableEq

def Report.message (r : Report) : String :=
  match r.details with
  | some details => s!"{r.origin.name}\x7b{r.code.name}: {details}\x7d"
  | none => s!"{r.origin.name}\x7b{r.code.name}\x7d"

/-- A fault as it is reported: the variable, if its name is known, and its lines. -/
structure BlockReport where
  name : Option Text
  lines : LineSpan
  code : Code
  details : Option String
deriving DecidableEq

def BlockReport.message (r : BlockReport) : String :=
  s!"{r.lines.label}: {r.code.name}" ++
    (match r.name with
      | some name => s!" in '{name.string}'"
      | none => "") ++
    (match r.details with
      | some details => s!" -- {details}"
      | none => "")

end StockFlow
