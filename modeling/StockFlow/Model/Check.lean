import StockFlow.Model.Load

/-! What can be checked of a model: that it is written as it was read, and that no reference
dangles. -/
namespace StockFlow.Model

/-- The index of the first line in which two texts differ, and that line in each; the lines of the
shorter text are followed by empty ones. -/
def firstDifference (index : Nat) : List Text → List Text → Nat × Text × Text
  | l :: ls, r :: rs => if l = r then firstDifference (index + 1) ls rs else (index, l, r)
  | ls, rs => (index, ls.headD [], rs.headD [])

def checkText (m : Model) (source : Text) : Except Error Unit :=
  if m.text = source then .ok ()
  else
    let (line, expected, written) := firstDifference 0 (Line.split source) (Line.split m.text)
    .error (.roundTripMismatch line expected written)

def checkEdges (m : Model) : Except Error Unit :=
  if m.dangling.isEmpty then .ok () else .error (.dangling m.dangling)

end StockFlow.Model
