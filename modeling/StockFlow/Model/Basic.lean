import StockFlow.Document.Basic
import StockFlow.Graph.Classification
import StockFlow.Variable.Block

/-! A model: a document, the graph of its variables, and which of them have been edited since it was
read. Models are values; an edit gives a new one. -/
namespace StockFlow

structure Model where
  dialect : Dialect
  document : Document
  graph : Graph
  /-- The variables whose blocks have to be written anew. -/
  edited : NameSet

namespace Model

/-- The records in the order of their blocks. -/
def records (m : Model) : List Record := m.document.names.filterMap m.graph.find?

def withRole (m : Model) (role : Role) : List Record := m.records.filter fun r => r.role = role

def dangling (m : Model) : List DanglingEdge := m.graph.dangling.items

/-- The lines of a segment as they are written: those that were read, or those of the record if it
has been edited. -/
def writtenLines (m : Model) : Segment → List Text
  | .verbatim stretch => stretch.lines
  | .block name stretch =>
    match m.graph.find? name with
    | some r =>
      if m.edited.contains name then Block.write m.dialect m.document.ending r else stretch.lines
    | none => stretch.lines

/-- The text of the model. What was not edited is written as it was read. -/
def text (m : Model) : Text :=
  m.document.sections.header ++ (m.document.segments.flatMap m.writtenLines).flatten ++
    m.document.sections.trailing.lines.flatten

end Model

end StockFlow
