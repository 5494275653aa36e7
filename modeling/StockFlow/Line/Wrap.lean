import StockFlow.Text.Basic

/-! A text laid out over several lines. A line may end only at a single space that joining would
put back: not inside a quoted name, not beside another blank, not before a tilde or a bar, which
would read as marks, and not after a bar or a backslash, which joining would take away. Lines are
filled as far as the width allows; a stretch without such a space keeps to one line however long. -/
namespace StockFlow

/-- Where a reader of the text stands with respect to quoted names. -/
inductive Quoting where
  | outside
  | inside
  /-- Inside, after a backslash. -/
  | escaped
deriving DecidableEq

def Quoting.step : Quoting → Char → Quoting
  | outside, c => if c = '"' then inside else outside
  | inside, c => if c = '\\' then escaped else if c = '"' then outside else inside
  | escaped, _ => inside

namespace Line

def mayEnd (c : Char) : Bool := !(Unicode.isBlank c || c == '\\' || c == '|')

def mayStart (c : Char) : Bool := !(Unicode.isBlank c || c == '~' || c == '|')

/-- Whether a line may end in place of the character `c` that stands between these neighbours. -/
def isBreak (quoting : Quoting) (before : Option Char) (c : Char) (after : Option Char) : Bool :=
  quoting == .outside && c == ' ' && before.any mayEnd && after.any mayStart

/-- The stretch of text up to the next break, and the stretches after it. -/
def cut (quoting : Quoting) (before : Option Char) : Text → Text × List Text
  | [] => ([], [])
  | c :: rest =>
    let (stretch, stretches) := cut (quoting.step c) (some c) rest
    if isBreak quoting before c rest.head? then ([], stretch :: stretches)
    else (c :: stretch, stretches)

/-- Adds stretches to a line while they fit, and then begins the next line. -/
def fill (width : Nat) (other line : Text) : List Text → List Text
  | [] => [line]
  | stretch :: stretches =>
    if line.length + 1 + stretch.length ≤ width then
      fill width other (line ++ ' ' :: stretch) stretches
    else
      line :: fill width other (other ++ stretch) stretches

/-- The text in lines of at most `width` characters, where it can be broken; the first line begins
with `first` and every other line with `other`. -/
def wrap (width : Nat) (first other text : Text) : List Text :=
  let (stretch, stretches) := cut .outside none text
  fill width other (first ++ stretch) stretches

end Line

end StockFlow
