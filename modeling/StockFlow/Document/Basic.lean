import StockFlow.Document.Part

/-! A document whose blocks have been read: its sections, with the name that each block declares. -/
namespace StockFlow

inductive Segment where
  | verbatim (stretch : Stretch)
  | block (name : Text) (stretch : Stretch)
deriving DecidableEq

namespace Segment

def stretch : Segment → Stretch
  | verbatim stretch => stretch
  | block _ stretch => stretch

def name? : Segment → Option Text
  | verbatim _ => none
  | block name _ => some name

/-- The lines of the first block that declares `name`. -/
def find? (name : Text) (segments : List Segment) : Option Stretch :=
  (segments.find? fun s => s.name? == some name).map stretch

end Segment

structure Document where
  sections : Sections
  segments : List Segment
  ending : Newline
deriving DecidableEq

namespace Document

/-- The declared names, in the order of their blocks. -/
def names (doc : Document) : List Text := doc.segments.filterMap Segment.name?

def block? (doc : Document) (name : Text) : Option Stretch := Segment.find? name doc.segments

end Document

end StockFlow
