import StockFlow.Unicode.Blank

/-! Texts as lists of characters, with the cuts that the rest of the library makes in them:
trimming blanks, splitting at separators and joining again. Offsets that an answer shows count bytes
of the UTF-8 encoding; widths count characters. -/
namespace StockFlow

open Unicode (isBlank)

abbrev Text := List Char

namespace Text

def byteSize : Text → Nat
  | [] => 0
  | c :: rest => c.utf8Size + byteSize rest

@[simp] theorem byteSize_append (s t : Text) : byteSize (s ++ t) = byteSize s + byteSize t := by
  induction s with
  | nil => simp [byteSize]
  | cons c rest ih => simp [byteSize, ih, Nat.add_assoc]

def dropTrailing (p : Char → Bool) (t : Text) : Text := (t.reverse.dropWhile p).reverse

def trimStart (t : Text) : Text := t.dropWhile isBlank

def trimEnd (t : Text) : Text := dropTrailing isBlank t

def trim (t : Text) : Text := trimEnd (trimStart t)

/-- The piece before the first separator, and the pieces after each separator. -/
def cut {α : Type} (isSeparator : α → Bool) : List α → List α × List (List α)
  | [] => ([], [])
  | c :: rest =>
    let (piece, pieces) := cut isSeparator rest
    if isSeparator c then ([], piece :: pieces) else (c :: piece, pieces)

/-- The pieces between separators; there is always one more piece than separators. -/
def split {α : Type} (isSeparator : α → Bool) (t : List α) : List (List α) :=
  (cut isSeparator t).1 :: (cut isSeparator t).2

def joinWith (separator : String) (pieces : List Text) : Text :=
  List.intercalate separator.toList pieces

/-- What is before the first `c`, and what is after it. -/
def breakAt? (c : Char) : Text → Option (Text × Text)
  | [] => none
  | d :: rest =>
    if d = c then some ([], rest)
    else (breakAt? c rest).map fun (before, after) => (d :: before, after)

theorem breakAt?_eq_some {c : Char} {t before after : Text}
    (h : breakAt? c t = some (before, after)) : t = before ++ c :: after ∧ c ∉ before := by
  induction t generalizing before with
  | nil => simp [breakAt?] at h
  | cons d rest ih =>
    simp only [breakAt?] at h
    split at h
    next hd =>
      obtain ⟨rfl, rfl⟩ := by simpa using h
      simp [hd]
    next hd =>
      obtain ⟨⟨before', after'⟩, h', heq⟩ := Option.map_eq_some_iff.1 h
      obtain ⟨rfl, rfl⟩ := by simpa using heq
      obtain ⟨rfl, hc⟩ := ih h'
      exact ⟨rfl, by simpa [Ne.symm hd] using hc⟩

/-- The text without its last character, when that character is `c`. -/
def dropLast? (c : Char) (t : Text) : Option Text :=
  if t.getLast? = some c then some t.dropLast else none

def string (t : Text) : String := String.ofList t

end Text

end StockFlow
