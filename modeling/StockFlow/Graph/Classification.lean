import StockFlow.Graph.Basic
import StockFlow.Variable.Dependency

/-! The role of each variable in the dynamics. A stock is what its equation says it is. A flow is
what the first argument of some stock refers to, stocks excepted. Of the others, those with parents
are auxiliaries and those without are constants. Only what is authored counts, never a role that was
assigned before. -/
namespace StockFlow

abbrev RoleTable := Catalog (Prod.fst : Text × Role → Text)

def RoleTable.role (roles : RoleTable) (name : Text) : Role :=
  (roles.find? name).elim .unclassified Prod.snd

namespace Graph

/-- What the net flow into a stock refers to. -/
def inflows (d : Dialect) (stock : Record) : List Text :=
  match Call.argument stock.equation d.stock.text 0 with
  | .ok flow => references d flow
  | .error _ => []

def roles (d : Dialect) (g : Graph) : RoleTable :=
  let isStock (r : Record) := d.callsStock r.equation
  let flows := (g.records.items.filter isStock).flatMap (inflows d)
  g.records.map (fun r =>
    (r.name,
      if isStock r then .stock
      else if flows.contains r.name then .flow
      else if !r.parents.isEmpty then .auxiliary
      else .constant)) fun _ => rfl

def withRoles (roles : RoleTable) (g : Graph) : Graph :=
  { g with records := g.records.map (fun r => { r with role := roles.role r.name }) fun _ => rfl }

def classified (d : Dialect) (g : Graph) : Graph := g.withRoles (g.roles d)

end Graph

end StockFlow
