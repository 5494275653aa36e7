import StockFlow.Text.Basic

/-! Values of the JSON data format. Members keep their order and may share a key, and a number keeps
its spelling, since `1`, `1.0` and `1e0` are not taken for the same. -/
namespace StockFlow

inductive Json where
  | null
  | bool (value : Bool)
  | number (spelling : Text)
  /-- Nothing is known of a string in which an escape stands for half of a character. -/
  | string (contents : Option Text)
  | array (items : List Json)
  | object (members : List (Option Text × Json))

namespace Json

def ofText (t : Text) : Json := string (some t)

def ofString (s : String) : Json := ofText s.toList

/-- An object whose keys are plain. -/
def ofMembers (members : List (String × Json)) : Json :=
  object (members.map fun (key, value) => (some key.toList, value))

def text? : Json → Option Text
  | string contents => contents
  | _ => none

def array? : Json → Option (List Json)
  | array items => some items
  | _ => none

/-- A number that is spelled with digits alone. -/
def natural? : Json → Option Nat
  | number spelling =>
    if spelling.all Char.isDigit then
      some (spelling.foldl (fun n c => 10 * n + (c.toNat - '0'.toNat)) 0)
    else none
  | _ => none

def texts? (value : Json) : Option (List Text) := value.array?.bind (List.mapM text?)

end Json

end StockFlow
