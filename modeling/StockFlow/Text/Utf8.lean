import StockFlow.Text.Basic

/-! Reading bytes as UTF-8 without refusing any: each longest run of bytes that begins a character
but cannot be continued, and each byte that begins none, becomes one replacement character. The
reader is a machine that takes a byte at a time and holds at most one unfinished character. -/
namespace StockFlow.Text.Utf8

/-- An unfinished character: its bits so far, how many bytes it lacks, and bounds of the next. -/
structure Pending where
  bits : Nat
  missing : Nat
  low : Nat
  high : Nat
deriving DecidableEq

/-- What the first byte of a longer sequence begins. The bounds leave out overlong forms,
surrogates and code points past the last one. -/
def begin? (b : Nat) : Option Pending :=
  if 0xC2 ≤ b ∧ b ≤ 0xDF then some ⟨b - 0xC0, 1, 0x80, 0xBF⟩
  else if b = 0xE0 then some ⟨0, 2, 0xA0, 0xBF⟩
  else if b = 0xED then some ⟨0xD, 2, 0x80, 0x9F⟩
  else if 0xE1 ≤ b ∧ b ≤ 0xEF then some ⟨b - 0xE0, 2, 0x80, 0xBF⟩
  else if b = 0xF0 then some ⟨0, 3, 0x90, 0xBF⟩
  else if 0xF1 ≤ b ∧ b ≤ 0xF3 then some ⟨b - 0xF0, 3, 0x80, 0xBF⟩
  else if b = 0xF4 then some ⟨4, 3, 0x80, 0x8F⟩
  else none

def replacement : Char := '\uFFFD'

/-- A byte that does not continue a character: what it writes and what it leaves unfinished. -/
def start (b : Nat) : Text × Option Pending :=
  if b < 0x80 then ([Char.ofNat b], none)
  else match begin? b with
    | some p => ([], some p)
    | none => ([replacement], none)

def step : Option Pending → Nat → Text × Option Pending
  | none, b => start b
  | some p, b =>
    if p.low ≤ b ∧ b ≤ p.high then
      let bits := p.bits * 64 + (b - 0x80)
      if p.missing = 1 then ([Char.ofNat bits], none)
      else ([], some ⟨bits, p.missing - 1, 0x80, 0xBF⟩)
    else (replacement :: (start b).1, (start b).2)

def run : Option Pending → List UInt8 → Text
  | none, [] => []
  | some _, [] => [replacement]
  | s, b :: rest => (step s b.toNat).1 ++ run (step s b.toNat).2 rest

end Utf8

/-- The text that the bytes spell. -/
def ofBytes (bytes : List UInt8) : Text := Utf8.run none bytes

end StockFlow.Text
