import StockFlow.Text.Basic
import StockFlow.Unicode.UpperCase

/-! Function names. Case does not count in them, and a run of spaces, underscores or line breaks
counts as one space. Variable names are never read this way. -/
namespace StockFlow

open Unicode (upperCase)

def isNameSeparator (c : Char) : Bool :=
  c == ' ' || c == '_' || c == '\t' || c == '\n' || c == '\r'

/-- One pass over a name: whether a word has been written, and whether a space is due before the
next one. -/
def canonicalFrom (started due : Bool) : Text → Text
  | [] => []
  | c :: rest =>
    if isNameSeparator c then canonicalFrom started started rest
    else (if due then [' '] else []) ++ upperCase c ++ canonicalFrom true false rest

/-- The spelling by which function names are compared: upper case, with one space between words and
none around them. -/
def canonicalName (name : Text) : Text := canonicalFrom false false name

/-- A function name in the spelling by which it is compared. -/
structure FunctionName where
  text : Text
  isCanonical : ∃ name, canonicalName name = text
  nonempty : text ≠ []

namespace FunctionName

/-- No function has a name without words. -/
def ofText? (name : Text) : Option FunctionName :=
  if h : canonicalName name = [] then none else some ⟨canonicalName name, ⟨name, rfl⟩, h⟩

end FunctionName

end StockFlow
