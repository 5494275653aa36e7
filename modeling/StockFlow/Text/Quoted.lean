import StockFlow.Text.Basic
import StockFlow.Unicode.Graphic

/-! The quoted form in which a message shows a line: one line, in double quotes, with every
character that would not show on its own written as an escape. -/
namespace StockFlow.Text

open Unicode (isGraphic)

def escape (c : Char) : Text :=
  match c with
  | '\x00' => ['\\', '0']
  | '\t' => ['\\', 't']
  | '\n' => ['\\', 'n']
  | '\r' => ['\\', 'r']
  | '"' => ['\\', '"']
  | '\\' => ['\\', '\\']
  | _ =>
    if isGraphic c then [c]
    else ['\\', 'u', '\x7b'] ++ Nat.toDigits 16 c.toNat ++ ['\x7d']

def quoted (t : Text) : Text := '"' :: t.flatMap escape ++ ['"']

end StockFlow.Text
