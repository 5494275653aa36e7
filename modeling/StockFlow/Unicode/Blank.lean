import StockFlow.Unicode.Ranges

/-! The characters that count as blank: those with the property White_Space. They are
what trimming removes and what a blank line is made of. -/
namespace StockFlow.Unicode

def blanks : Ranges :=
  [(0x9, 0xD), (0x20, 0x20), (0x85, 0x85), (0xA0, 0xA0), (0x1680, 0x1680), (0x2000, 0x200A),
    (0x2028, 0x2029), (0x202F, 0x202F), (0x205F, 0x205F), (0x3000, 0x3000)]

def isBlank (c : Char) : Bool := blanks.contains c.toNat

end StockFlow.Unicode
