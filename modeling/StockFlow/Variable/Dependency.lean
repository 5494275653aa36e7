import StockFlow.Equation.Call
import StockFlow.Equation.Reference
import StockFlow.Variable.Record

/-! What a right-hand side depends on. -/
namespace StockFlow

/-- An equation that calls the stock function must call it with a flow and an initial value. -/
def checkStock (d : Dialect) (equation : Text) : Except CallError Unit :=
  if d.callsStock equation then
    match Call.arguments equation d.stock.text with
    | .ok [_, _] => .ok ()
    | .ok _ => .error ⟨0, equation.byteSize⟩
    | .error e => .error e
  else .ok ()

/-- The equation as a record keeps it, and its parents. A placeholder leaves no equation, only the
parents that it lists. A subscript range lists elements, which are not variables. -/
def dependencies (d : Dialect) (operator : Operator) (equation : Text) :
    Except CallError (Text × NameSet) :=
  if operator = .subscriptRange then .ok (equation, Catalog.empty)
  else if d.callsPlaceholder equation then
    (Call.arguments equation d.placeholder.text).map fun arguments =>
      ([], Catalog.ofList (arguments.flatMap (references d)))
  else
    (checkStock d equation).map fun _ => (equation, Catalog.ofList (references d equation))

end StockFlow
