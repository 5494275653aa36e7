import StockFlow.Dialect.Basic
import StockFlow.Engine.Attribute
import StockFlow.Equation.Token
import StockFlow.Graph.Classification

/-! Roles as an engine sees them. -/
namespace StockFlow.Engine

/-- The names under which an engine knows a variable: one for each subscript element, or its own. -/
def scalarNames (name : Text) (elements : List Text) : List Text :=
  if elements.isEmpty then [name] else elements.map (Token.elementName name)

/-- The role of a variable of this type; a constraint is no variable. -/
def roleOfType? (type : Text) : Option Role :=
  if type = "Constraint".toList then none
  else if type = "Level".toList then some .stock
  else if type = "Auxiliary".toList then some .auxiliary
  else if type = "Constant".toList then some .constant
  else some .unclassified

variable {m : Type → Type} [Monad m]

/-- Asks for the type of each name, in turn. -/
def typeRoles (ask : Text → Attribute → m Answer) (names : List Text) : m RoleTable :=
  names.foldlM (fun roles name => do
    match roleOfType? (← ask name .type).asText with
    | some role => return roles.insert (name, role)
    | none => return roles) Catalog.empty

/-- The names that have the role, in their order. -/
def namesWithRole (roles : RoleTable) (role : Role) : List Text :=
  (roles.items.filter fun entry => entry.2 = role).map Prod.fst

/-- The roles of the names that are not reserved. An auxiliary that uses a stock is a flow. -/
def roles (d : Dialect) (ask : Text → Attribute → m Answer) (names : List Text) : m RoleTable := do
  let typed ← typeRoles ask (names.filter fun name => !d.reserves name)
  let stocks := namesWithRole typed .stock
  (namesWithRole typed .auxiliary).foldlM (fun roles name => do
    let used := (← ask name .uses).asList
    if used.any stocks.contains then return roles.insert (name, .flow) else return roles) typed

end StockFlow.Engine
