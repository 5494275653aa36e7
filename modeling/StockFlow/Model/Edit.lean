import StockFlow.Model.Basic

/-! Redefining a variable of a model. -/
namespace StockFlow

/-- New texts for a variable; what is not given stays as it is. -/
structure Edit where
  equation : Option Text
  units : Option Text
  comment : Option Text
deriving DecidableEq

namespace Edit

/-- A record keeps each text on one line. -/
def oneLine (t : Text) : Text := Line.join none none (Line.split t)

/-- The record as edited. A new equation brings its own parents. -/
def apply (d : Dialect) (e : Edit) (r : Record) : Except Error Record :=
  let units := e.units.elim r.units oneLine
  let comment := e.comment.elim r.comment oneLine
  match e.equation.map oneLine with
  | none => .ok { r with units, comment }
  | some equation =>
    match dependencies d r.operator equation with
    | .ok (equation, parents) => .ok { r with units, comment, equation, parents }
    | .error cause => .error (.badArguments r.name equation cause)

end Edit

/-- The model with `name` redefined. Every role is assigned anew, since an equation can make flows
of other variables. An edit that changes nothing gives the same model. -/
def Model.edit (m : Model) (name : Text) (e : Edit) : Except Error Model :=
  match m.graph.find? name with
  | none => .error (.noVariable name)
  | some current =>
    match e.apply m.dialect current with
    | .error error => .error error
    | .ok r =>
      if r.authoredLike current then .ok m
      else
        match m.graph.redefine? r with
        | none => .error (.noVariable name)
        | some graph =>
          .ok { m with
            graph := graph.classified m.dialect
            edited := m.edited.insert name }

end StockFlow
