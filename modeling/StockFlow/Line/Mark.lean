import StockFlow.Text.Basic

/-! The marks that set the parts of a variable apart: a tilde before its units and before its
comment, a bar after all. A mark is found at its leftmost place in a line, as long as possible
there; joining removes it only where that place is at the edge of the line. -/
namespace StockFlow

open Unicode (isBlank)

inductive Mark where
  /-- The blanks at the start of a line, with the tilde that follows them, if one does. -/
  | delimiter
  /-- A bar at the end of a line, with the blanks on both sides of it. -/
  | terminator
  | tilde
  | bar
deriving DecidableEq

namespace Mark

/-- The first place where the mark stands: what is before it and what is after it. -/
def find? : Mark → Text → Option (Text × Text)
  | delimiter, line =>
    match line.dropWhile isBlank with
    | '~' :: rest => some ([], rest)
    | rest => some ([], rest)
  | terminator, line =>
    (Text.dropLast? '|' (Text.trimEnd line)).map fun before => (before.trimEnd, [])
  | tilde, line => Text.breakAt? '~' line
  | bar, line => Text.breakAt? '|' line

/-- The line without the mark that it starts with. -/
def stripHead (mark : Mark) (line : Text) : Text :=
  match mark.find? line with
  | some ([], after) => after
  | _ => line

/-- The line without the mark that it ends with. -/
def stripTail (mark : Mark) (line : Text) : Text :=
  match mark.find? line with
  | some (before, []) => before
  | _ => line

end Mark

end StockFlow
