import StockFlow.Text.Basic
import StockFlow.Unicode.Alphanumeric

/-! The lines of a text, each with its ending, and what a single line can be. -/
namespace StockFlow

/-- How lines end. -/
inductive Newline where
  | lf
  | crlf
deriving DecidableEq

namespace Newline

def text : Newline → Text
  | lf => ['\n']
  | crlf => ['\r', '\n']

/-- The ending of the first line; a text without line feeds counts as having plain ones. -/
def ofText (text : Text) : Newline :=
  match text.breakAt? '\n' with
  | some (line, _) => if line.getLast? = some '\r' then crlf else lf
  | none => lf

end Newline

namespace Line

open Unicode (isAlphanumeric)

/-- The lines of a text, each with the line feed that ends it. -/
def split : Text → List Text
  | [] => []
  | c :: rest =>
    if c = '\n' then [c] :: split rest
    else
      match split rest with
      | [] => [[c]]
      | line :: lines => (c :: line) :: lines

/-- A line without any line feeds and carriage returns at its end. -/
def withoutEnding (line : Text) : Text := line.dropTrailing fun c => c == '\n' || c == '\r'

def isBlank (line : Text) : Bool := line.trim.isEmpty

/-- A declaration starts with a letter, a digit, an underscore or a quoted name. -/
def isDeclaration (line : Text) : Bool :=
  line.head?.any fun c => isAlphanumeric c || c == '_' || c == '"'

/-- Whether the line begins with `keyword`, whatever the case and after any blanks. -/
def opensWith (keyword : String) (line : Text) : Bool :=
  (line.trimStart.take keyword.toList.length).map Char.toLower == keyword.toList.map Char.toLower

def opensMacro (line : Text) : Bool := opensWith ":MACRO:" line

def closesMacro (line : Text) : Bool := opensWith ":END OF MACRO:" line

/-- A line that begins the units or the comment of a variable. -/
def isDelimiter (line : Text) : Bool := line.trimStart.head? == some '~'

end Line

end StockFlow
