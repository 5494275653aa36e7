import StockFlow.Model.Basic

/-! Reading a model. A document without the right sections or with a block that never ends is given
up; a block that cannot be read, or that declares a name again, is reported with all others. -/
namespace StockFlow.Model

/-- What the parts read so far have given. -/
structure Loading where
  segments : List Segment
  records : List Record
  errors : List BlockError

namespace Loading

def empty : Loading := ⟨[], [], []⟩

def fail (l : Loading) (error : BlockError) : Loading :=
  { l with errors := l.errors ++ [error] }

def addPart (d : Dialect) (l : Loading) : Part → Loading
  | .verbatim stretch => { l with segments := l.segments ++ [.verbatim stretch] }
  | .block stretch =>
    match Block.read d stretch with
    | .error error => l.fail error
    | .ok r =>
      match Segment.find? r.name l.segments with
      | some first => l.fail ⟨some r.name, stretch.range, .duplicate first.range⟩
      | none =>
        { l with
          segments := l.segments ++ [.block r.name stretch]
          records := l.records ++ [r] }

end Loading

def load (d : Dialect) (source : Text) : Except LoadFailure Model := do
  let sections ← (Sections.ofLines d (Line.split source)).mapError .document
  let parts ← (Part.extract sections.declarations).mapError .document
  let loading := parts.foldl (Loading.addPart d) Loading.empty
  if loading.errors.isEmpty then
    return {
      dialect := d
      document := ⟨sections, loading.segments, Newline.ofText source⟩
      graph := (Graph.ofRecords loading.records).classified d
      edited := Catalog.empty }
  else
    throw (.blocks loading.errors)

end StockFlow.Model
