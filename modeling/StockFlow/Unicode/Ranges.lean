/-! Sets of code points, and maps between them, as short tables. A set is an increasing list
of closed ranges. A map is a list of runs, each of which moves evenly spaced code points by one
common distance; code points that no run holds stay where they are. -/
namespace StockFlow.Unicode

/-- Closed ranges of code points, in increasing order and without overlap. -/
abbrev Ranges := List (Nat × Nat)

/-- The ranges increase, so the search ends at the first one that starts above `n`. -/
def Ranges.contains : Ranges → Nat → Bool
  | [], _ => false
  | (first, last) :: rest, n =>
    if n < first then false else if n ≤ last then true else Ranges.contains rest n

/-- Every `step`-th code point from `first` to `last`, moved so that `first` lands on `image`. -/
structure Run where
  first : Nat
  last : Nat
  step : Nat
  image : Nat

def Run.move? (run : Run) (n : Nat) : Option Nat :=
  if run.first ≤ n ∧ n ≤ run.last ∧ (n - run.first) % run.step = 0 then
    some (run.image + (n - run.first))
  else
    none

abbrev Runs := List Run

def Runs.apply (runs : Runs) (n : Nat) : Nat :=
  (runs.findSome? fun run => run.move? n).getD n

end StockFlow.Unicode
