import StockFlow.Text.Basic

/-! The tokens of an equation. -/
namespace StockFlow

inductive Token where
  /-- A bare name, which may have spaces inside, or a quoted name with its quotes. -/
  | ident (name : Text)
  /-- A name with the text between the brackets that follow it. -/
  | subscripted (name subscript : Text)
  | num (digits : Text)
  /-- What stands between single quotes. -/
  | literal (contents : Text)
  /-- What stands between the colons of a word such as `:AND:`. -/
  | keyword (contents : Text)
  | lparen
  | rparen
  | lbracket
  | rbracket
  | comma
  | op (symbol : Text)
deriving DecidableEq

namespace Token

/-- The name under which a subscripted variable is kept: its elements lose the blanks around
them and the brackets follow the name directly. -/
def elementName (name subscript : Text) : Text :=
  name ++ '[' :: Text.joinWith "," ((Text.split (· == ',') subscript).map Text.trim) ++ [']']

/-- The variable that a name stands for. -/
def key : Token → Option Text
  | ident name => some name
  | subscripted name subscript => some (elementName name subscript)
  | _ => none

end Token

end StockFlow
