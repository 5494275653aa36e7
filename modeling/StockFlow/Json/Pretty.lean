import StockFlow.Json.Basic

/-! JSON laid out for reading: two spaces for each level, one item or member on a line, and brackets
with nothing between them on one line. -/
namespace StockFlow.Json

def hexDigit (n : Nat) : Char := Nat.digitChar n

/-- Only quotes, backslashes and control characters are escaped. -/
def escape (c : Char) : Text :=
  match c with
  | '"' => ['\\', '"']
  | '\\' => ['\\', '\\']
  | '\x08' => ['\\', 'b']
  | '\x0c' => ['\\', 'f']
  | '\n' => ['\\', 'n']
  | '\r' => ['\\', 'r']
  | '\t' => ['\\', 't']
  | _ =>
    if c.toNat < 0x20 then
      ['\\', 'u', '0', '0', hexDigit (c.toNat / 16), hexDigit (c.toNat % 16)]
    else [c]

def quote (t : Text) : Text := '"' :: t.flatMap escape ++ ['"']

/-- Lines between brackets, one level further in than the brackets. -/
def enclose (opening closing : Char) (level : Nat) (lines : List Text) : Text :=
  if lines.isEmpty then [opening, closing]
  else
    let indent (level : Nat) : Text := '\n' :: List.replicate (2 * level) ' '
    opening :: Text.joinWith "," (lines.map (indent (level + 1) ++ ·)) ++ indent level ++ [closing]

mutual

def pretty (level : Nat) : Json → Text
  | null => "null".toList
  | bool value => (if value then "true" else "false").toList
  | number spelling => spelling
  | string contents => quote (contents.getD [])
  | array items => enclose '[' ']' level (prettyItems (level + 1) items)
  | object members => enclose '\x7b' '\x7d' level (prettyMembers (level + 1) members)

def prettyItems (level : Nat) : List Json → List Text
  | [] => []
  | item :: items => pretty level item :: prettyItems level items

def prettyMembers (level : Nat) : List (Option Text × Json) → List Text
  | [] => []
  | (key, value) :: members =>
    (quote (key.getD []) ++ [':', ' '] ++ pretty level value) :: prettyMembers level members

end

end StockFlow.Json
