import StockFlow.Dialect.Basic
import StockFlow.Equation.Piece

/-! The variables that an equation refers to. A function name before a parenthesis is a call, not
a reference; anywhere else a variable may have the name of a function. -/
namespace StockFlow

namespace Reference

def isCall (d : Dialect) : Token → List Token → Bool
  | .ident name, .lparen :: _ => d.hasFunction name
  | _, _ => false

/-- The references among the tokens, in order and with repetitions. -/
def ofTokens (d : Dialect) : List Token → List Text
  | [] => []
  | token :: rest =>
    match token.key with
    | some key =>
      if isCall d token rest || d.reserves key then ofTokens d rest
      else key :: ofTokens d rest
    | none => ofTokens d rest

end Reference

/-- The names that the equation refers to, each once, in order of first appearance. -/
def references (d : Dialect) (equation : Text) : List Text :=
  (Reference.ofTokens d (Token.ofEquation equation)).eraseDups

end StockFlow
