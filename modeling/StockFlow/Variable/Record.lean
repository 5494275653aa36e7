import StockFlow.Catalog

/-! A variable as it is authored, and what the graph of all variables says about it. -/
namespace StockFlow

/-- What follows the name in a declaration. -/
inductive Operator where
  /-- `name = equation` -/
  | equals
  /-- `name := equation`, with external data on the right -/
  | data
  /-- `range: element, element` -/
  | subscriptRange
  /-- `name(table)` -/
  | none
deriving DecidableEq

namespace Operator

def name : Operator → String
  | equals => "equals"
  | data => "data"
  | subscriptRange => "subscript_range"
  | none => "none"

def symbol : Operator → Text
  | equals => ['=']
  | data => [':', '=']
  | subscriptRange => [':']
  | none => []

/-- The operator at the head of the text that follows a name, and what follows the operator. -/
def split (rest : Text) : Operator × Text :=
  match rest.trimStart with
  | ':' :: '=' :: equation => (data, equation)
  | '=' :: equation => (equals, equation)
  | ':' :: elements => (subscriptRange, elements)
  | table => (none, table)

end Operator

/-- What a variable does in the dynamics of the model. -/
inductive Role where
  | stock
  | flow
  | auxiliary
  | constant
  | unclassified
deriving DecidableEq

def Role.name : Role → String
  | stock => "stock"
  | flow => "flow"
  | auxiliary => "auxiliary"
  | constant => "constant"
  | unclassified => "unclassified"

structure Record where
  name : Text
  operator : Operator
  /-- The right-hand side on one line; empty when only the parents are given. -/
  equation : Text
  units : Text
  comment : Text
  parents : NameSet
  /-- The variables that have this one among their parents. -/
  children : NameSet
  role : Role

/-- Whether both records are authored alike; children and role are not authored. -/
def Record.authoredLike (r s : Record) : Bool :=
  r.name == s.name && r.operator == s.operator && r.equation == s.equation &&
    r.units == s.units && r.comment == s.comment && r.parents.items == s.parents.items

end StockFlow
