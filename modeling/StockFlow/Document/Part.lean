import StockFlow.Dialect.Basic
import StockFlow.Line.Basic

/-! The sections of a document, and the parts of the section that holds the variables: blocks, one
for each variable, and the lines around them. No line is dropped, so that text which nobody edits
can be written back as it was read. -/
namespace StockFlow

/-- Consecutive lines of a document, and the index of the first of them. -/
structure Stretch where
  start : Nat
  lines : List Text
deriving DecidableEq

def Stretch.range (s : Stretch) : LineSpan := ⟨s.start, s.start + s.lines.length⟩

/-- A header line, the lines with the variables, and all lines from the first boundary line on. -/
structure Sections where
  header : Text
  declarations : Stretch
  trailing : Stretch
deriving DecidableEq

namespace Sections

def headerRange (_ : Sections) : LineSpan := ⟨0, 1⟩

/-- The first line is the header even if it looks like a boundary. -/
def ofLines (d : Dialect) : List Text → Except Error Sections
  | [] => .error .emptyDocument
  | header :: lines =>
    let isInside (line : Text) := !d.isBoundaryLine (Line.withoutEnding line)
    let declarations := lines.takeWhile isInside
    match lines.dropWhile isInside with
    | [] => .error .noBoundary
    | trailing => .ok ⟨header, ⟨1, declarations⟩, ⟨1 + declarations.length, trailing⟩⟩

end Sections

inductive Part where
  /-- Lines outside any block: blank lines, headings, macro definitions. -/
  | verbatim (stretch : Stretch)
  /-- The lines of one variable, without the blank line that ends them. -/
  | block (stretch : Stretch)
deriving DecidableEq

namespace Part

def stretch : Part → Stretch
  | verbatim stretch => stretch
  | block stretch => stretch

/-- How many lines a macro definition takes, given the lines after its first: through the line that
ends it, or all. -/
def macroLength (lines : List Text) : Nat :=
  match lines.findIdx? Line.closesMacro with
  | some i => i + 1
  | none => lines.length

/-- The part that holds lines outside any block, unless there are none. -/
def ofSkipped (start : Nat) (lines : List Text) : List Part :=
  if lines.isEmpty then [] else [verbatim ⟨start, lines⟩]

/-- The parts of `lines`, the first of which has index `start + skipped.length`, where `skipped`
are the lines before them that no part holds yet. -/
def extractFrom (start : Nat) (skipped : List Text) : List Text → Except Error (List Part)
  | [] => .ok (ofSkipped start skipped)
  | line :: rest =>
    if Line.opensMacro line then
      let length := macroLength rest
      extractFrom start (skipped ++ line :: rest.take length) (rest.drop length)
    else if Line.isDeclaration line then
      match rest.findIdx? Line.isBlank with
      | none => .error (.unterminatedBlock (start + skipped.length) (Line.withoutEnding line))
      | some length =>
        let stretch : Stretch := ⟨start + skipped.length, line :: rest.take length⟩
        (extractFrom stretch.range.stop [] (rest.drop length)).map fun parts =>
          ofSkipped start skipped ++ block stretch :: parts
    else
      extractFrom start (skipped ++ [line]) rest
termination_by lines => lines.length
decreasing_by all_goals simp only [List.length_drop, List.length_cons]; omega

/-- Splits lines into blocks and the lines between them. A block starts at a declaration outside
macro definitions and ends before the next blank line, which must be there. -/
def extract (lines : Stretch) : Except Error (List Part) := extractFrom lines.start [] lines.lines

end Part

end StockFlow
