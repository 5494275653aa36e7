import StockFlow.Line.Basic
import StockFlow.Line.Mark

/-! Continuation lines joined into one. Each line loses its ending, the mark at its head and the
blanks around it; the last loses the mark at its tail, and every other a backslash at its end, which
says that the text goes on. What is left is joined with single spaces, empty lines left out. -/
namespace StockFlow.Line

def strip (mark : Option Mark) (f : Mark → Text → Text) (line : Text) : Text :=
  match mark with
  | some mark => f mark line
  | none => line

/-- What a line that others follow gives to the whole. -/
def innerPiece (head : Option Mark) (line : Text) : Text :=
  let text := (strip head Mark.stripHead (withoutEnding line)).trim
  match text.dropLast? '\\' with
  | some continued => continued.trimEnd
  | none => text

/-- What the last line gives to the whole. -/
def lastPiece (head tail : Option Mark) (line : Text) : Text :=
  (strip tail Mark.stripTail (strip head Mark.stripHead (withoutEnding line))).trim

def pieces (head tail : Option Mark) : List Text → List Text
  | [] => []
  | [line] => [lastPiece head tail line]
  | line :: lines => innerPiece head line :: pieces head tail lines

def join (head tail : Option Mark) (lines : List Text) : Text :=
  Text.joinWith " " ((pieces head tail lines).filter fun piece => !piece.isEmpty)

end StockFlow.Line
