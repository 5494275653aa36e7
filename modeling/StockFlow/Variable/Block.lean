import StockFlow.Document.Part
import StockFlow.Line.Join
import StockFlow.Line.Wrap
import StockFlow.Variable.Dependency

/-! The block of lines that declares a variable, read and written. It has the name, the operator and
the start of the equation on its first line; then the rest of the equation; then the units, from the
first line that starts with a tilde; then the comment, from the next such line to the end. -/
namespace StockFlow.Block

/-- The lines before the first delimiter line, that line, and the lines after it. -/
def delimit? : List Text → Option (List Text × Text × List Text)
  | [] => none
  | line :: lines =>
    if Line.isDelimiter line then some ([], line, lines)
    else (delimit? lines).map fun (before, delimiter) => (line :: before, delimiter)

/-- The name that a line declares, and what follows it. -/
def declared? (line : Text) : Option (Text × Text) :=
  match Token.leading? (Piece.scan line) with
  | some (token, rest) => token.key.map fun name => (name, rest)
  | none => none

def read (d : Dialect) (block : Stretch) : Except BlockError Record :=
  let fail (name : Option Text) (fault : BlockFault) : Except BlockError Record :=
    .error ⟨name, block.range, fault⟩
  match block.lines with
  | [] => fail none .emptyBlock
  | first :: lines =>
    match declared? (Line.withoutEnding first) with
    | none => fail none (.noName (Line.withoutEnding first))
    | some (name, definition) =>
      match delimit? lines with
      | none => fail (some name) .noUnits
      | some (continued, units, lines) =>
        match delimit? lines with
        | none => fail (some name) .noComment
        | some (more, comment, rest) =>
          let (operator, start) := Operator.split definition
          let equation := Line.join none none (start :: continued)
          match dependencies d operator equation with
          | .error _ => fail (some name) (.badArguments equation)
          | .ok (equation, parents) =>
            .ok {
              name, operator, equation, parents
              units := Line.join (some .delimiter) none (units :: more)
              comment := Line.join (some .delimiter) (some .terminator) (comment :: rest)
              children := Catalog.empty
              role := .unclassified }

/-- The equation to write: a record without one lists its parents in a placeholder. -/
def equationText (d : Dialect) (r : Record) : Text :=
  if r.equation.isEmpty && !r.parents.isEmpty then
    d.placeholder.text ++ '(' :: Text.joinWith ", " r.parents.items ++ [')']
  else r.equation

/-- The lines of a variable without their endings. An equation that is empty takes no line, since
a blank line would end the block. -/
def bareLines (d : Dialect) (r : Record) : List Text :=
  let equation := equationText d r
  [r.name ++ r.operator.symbol] ++
    (if equation.isEmpty then [] else Line.wrap d.maxWidth ['\t'] ['\t', '\t'] equation) ++
    Line.wrap d.maxWidth ['\t', '~', '\t'] ['\t', '\t'] r.units ++
    Line.wrap d.maxWidth ['\t', '~', '\t'] ['\t', '\t'] r.comment ++
    [['\t', '|']]

def write (d : Dialect) (ending : Newline) (r : Record) : List Text :=
  (bareLines d r).map (· ++ ending.text)

end StockFlow.Block
