import StockFlow.Json.Pretty
import StockFlow.Model.Basic

/-! The graph of a model as JSON. -/
namespace StockFlow

def NameSet.toJson (names : NameSet) : Json := .array (names.items.map Json.ofText)

def Record.toJson (r : Record) : Json :=
  .ofMembers [
    ("name", .ofText r.name),
    ("operator", .ofString r.operator.name),
    ("equation", .ofText r.equation),
    ("units", .ofText r.units),
    ("comment", .ofText r.comment),
    ("parents", NameSet.toJson r.parents),
    ("children", NameSet.toJson r.children),
    ("role", .ofString r.role.name)]

def DanglingEdge.toJson (r : DanglingEdge) : Json :=
  .ofMembers [("from", .ofText r.source), ("to", .ofText r.target)]

/-- The variables in the order of their blocks, and the references that dangle. -/
def Model.toJson (m : Model) : Json :=
  .ofMembers [
    ("variables", .array (m.records.map Record.toJson)),
    ("dangling", .array (m.dangling.map DanglingEdge.toJson))]

end StockFlow
