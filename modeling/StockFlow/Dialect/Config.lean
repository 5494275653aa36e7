import StockFlow.Dialect.Options
import StockFlow.Json.Reader

/-! Options written as a JSON object whose members stand for the options they name. Members with
other names say nothing, and options that are not named keep their standard value. The values alone,
in the standard order, will do too. -/
namespace StockFlow.Options

/-- The names of the options, in their standard order. -/
def memberNames : List Text :=
  ["reserved", "functions", "stock_function", "placeholder_function", "boundary_char",
    "max_line_width"].map String.toList

/-- The value of an option, which may be given once. -/
def member {α : Type} (members : List (Option Text × Json)) (name : String) (standard : α)
    (read : Json → Option α) : Option α :=
  match members.filter fun entry => entry.1 == some name.toList with
  | [] => some standard
  | [(_, value)] => read value
  | _ => none

def readBoundary (value : Json) : Option Char :=
  match value.text? with
  | some [c] => some c
  | _ => none

/-- Widths are words of 64 bits. -/
def readWidth (value : Json) : Option Nat := value.natural?.filter (· < 0x10000000000000000)

def ofMembers? (members : List (Option Text × Json)) : Option Options :=
  if members.all fun entry => entry.1.isSome then do
    let reserved ← member members "reserved" standard.reserved Json.texts?
    let functions ← member members "functions" standard.functions Json.texts?
    let stock ← member members "stock_function" standard.stock Json.text?
    let placeholder ←
      member members "placeholder_function" standard.placeholder Json.text?
    let boundary ← member members "boundary_char" standard.boundary readBoundary
    let maxWidth ← member members "max_line_width" standard.maxWidth readWidth
    return { reserved, functions, stock, placeholder, boundary, maxWidth }
  else none

def ofJson? : Json → Option Options
  | .object members => ofMembers? members
  | .array items =>
    if items.length ≤ memberNames.length then ofMembers? ((memberNames.map some).zip items)
    else none
  | _ => none

end StockFlow.Options
