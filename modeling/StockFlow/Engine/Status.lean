import StockFlow.Error

/-! The statuses that calls of a simulation engine come back with. -/
namespace StockFlow.Engine

/-- A call that failed. -/
structure Failure where
  status : Int
  details : Option String
deriving DecidableEq

namespace Failure

def message (f : Failure) : String :=
  match f.details with
  | some details => s!"engine status {f.status}: {details}"
  | none => s!"engine status {f.status}"

def report (f : Failure) : Report := ⟨.engine, .engine, some f.message⟩

end Failure

/-- How a status tells failure from success. -/
inductive Convention where
  /-- Every other status is a failure. -/
  | successIs (status : Int)
  /-- Every other status is an answer, often a size. -/
  | failureIs (status : Int)
deriving DecidableEq

namespace Convention

def standard : Convention := successIs 1

def fails : Convention → Int → Bool
  | successIs success, status => status != success
  | failureIs failure, status => status == failure

/-- The status of the call named `what`, unless it says that the call failed. -/
def check (c : Convention) (what : String) (status : Int) : Except Failure Int :=
  if c.fails status then .error ⟨status, some what⟩ else .ok status

end Convention

end StockFlow.Engine
