import StockFlow.Text.Utf8

/-! What an engine can be asked about a variable, and its answers. An answer comes as bytes: a text
that ends at the first zero byte, or several texts with zero bytes after them. -/
namespace StockFlow.Engine

inductive Attribute where
  | units
  | comment
  | equation
  | causes
  | uses
  | initialCauses
  | activeCauses
  | subscripts
  | subscriptCombinations
  | graphSubscripts
  | minimum
  | maximum
  | range
  | type
deriving DecidableEq

namespace Attribute

def all : List Attribute :=
  [units, comment, equation, causes, uses, initialCauses, activeCauses, subscripts,
    subscriptCombinations, graphSubscripts, minimum, maximum, range, type]

def code : Attribute → Nat
  | units => 1
  | comment => 2
  | equation => 3
  | causes => 4
  | uses => 5
  | initialCauses => 6
  | activeCauses => 7
  | subscripts => 8
  | subscriptCombinations => 9
  | graphSubscripts => 10
  | minimum => 11
  | maximum => 12
  | range => 13
  | type => 14

def ofCode? (code : Int) : Option Attribute := all.find? fun a => (a.code : Int) == code

/-- Whether the answer is a list of texts. -/
def isList (a : Attribute) : Bool := decide (4 ≤ a.code) && decide (a.code ≤ 10)

def name : Attribute → String
  | units => "units"
  | comment => "comment"
  | equation => "equation"
  | causes => "causes"
  | uses => "uses"
  | initialCauses => "initial causes"
  | activeCauses => "active causes"
  | subscripts => "subscripts"
  | subscriptCombinations => "subscript combinations"
  | graphSubscripts => "graph subscripts"
  | minimum => "minimum"
  | maximum => "maximum"
  | range => "range"
  | type => "type"

end Attribute

inductive Answer where
  | text (text : Text)
  | list (items : List Text)
deriving DecidableEq

namespace Answer

def asText : Answer → Text
  | text t => t
  | list items => Text.joinWith ", " items

/-- An empty text is no item. -/
def asList : Answer → List Text
  | text t => if t.isEmpty then [] else [t]
  | list items => items

def ofBytes (a : Attribute) (bytes : List UInt8) : Answer :=
  if a.isList then
    list (((Text.split (· == 0) bytes).filter fun item => !item.isEmpty).map Text.ofBytes)
  else
    text (Text.ofBytes (bytes.takeWhile (· != 0)))

end Answer

end StockFlow.Engine
