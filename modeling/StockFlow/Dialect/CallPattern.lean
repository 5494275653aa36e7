import StockFlow.Dialect.FunctionName
import StockFlow.Unicode.CaseFold

/-! The shape of an equation that is a call of a given function: blanks, the words of the name in
any case with blanks or underscores between them, blanks and an opening parenthesis. A word may
itself hold characters that count as blank, so a text can be cut in several ways along the shape;
it is enough that one of them works. A text is read once, with all shapes that can still follow. -/
namespace StockFlow

open Unicode (isBlank sameFold)

/-- What a shape can ask of a character. -/
inductive CharClass where
  | blank
  /-- A blank or an underscore. -/
  | separator
  /-- The letter in any case. -/
  | letter (c : Char)
  | openParen
deriving DecidableEq

def CharClass.holds : CharClass → Char → Bool
  | blank, c => isBlank c
  | separator, c => isBlank c || c == '_'
  | letter d, c => sameFold d c
  | openParen, c => c == '('

inductive PatternPart where
  | one (k : CharClass)
  | many (k : CharClass)
deriving DecidableEq

abbrev CallPattern := List PatternPart

namespace CallPattern

/-- A text starts with a stretch of the shape. -/
inductive Fits : CallPattern → Text → Prop where
  | nil {t : Text} : Fits [] t
  | one {k : CharClass} {parts : CallPattern} {c : Char} {rest : Text} :
      k.holds c = true → Fits parts rest → Fits (.one k :: parts) (c :: rest)
  | skip {k : CharClass} {parts : CallPattern} {t : Text} :
      Fits parts t → Fits (.many k :: parts) t
  | take {k : CharClass} {parts : CallPattern} {c : Char} {rest : Text} :
      k.holds c = true → Fits (.many k :: parts) rest → Fits (.many k :: parts) (c :: rest)

/-- The shape of one word of a name. -/
def ofWord (word : Text) : CallPattern := word.map fun c => .one (.letter c)

/-- The shape of a call of `function`. -/
def ofFunction (function : FunctionName) : CallPattern :=
  .many .blank ::
    (List.intercalate [.one .separator, .many .separator]
        ((Text.split (· == ' ') function.text).map ofWord) ++
      [.many .blank, .one .openParen])

/-- Whether the shape asks for no more characters. -/
def isDone : CallPattern → Bool
  | [] => true
  | .one _ :: _ => false
  | .many _ :: parts => isDone parts

/-- What can be left of the shape after the character `c`. -/
def step (c : Char) : CallPattern → List CallPattern
  | [] => []
  | .one k :: parts => if k.holds c then [parts] else []
  | .many k :: parts => (if k.holds c then [.many k :: parts] else []) ++ step c parts

/-- Whether the text starts with a stretch of one of the shapes. -/
def fitsAny : List CallPattern → Text → Bool
  | shapes, [] => shapes.any isDone
  | shapes, c :: rest => shapes.any isDone || fitsAny (shapes.flatMap (step c)).eraseDups rest

def fits (shape : CallPattern) (t : Text) : Bool := fitsAny [shape] t

theorem fits_of_isDone {shape : CallPattern} {t : Text} (h : isDone shape = true) :
    Fits shape t := by
  induction shape with
  | nil => exact .nil
  | cons part parts ih =>
    cases part with
    | one k => simp [isDone] at h
    | many k => exact .skip (ih h)

theorem isDone_of_fits {shape : CallPattern} (h : Fits shape []) : isDone shape = true := by
  induction shape with
  | nil => rfl
  | cons part parts ih =>
    cases h with
    | skip h => exact ih h

theorem fits_cons_iff {shape : CallPattern} {c : Char} {rest : Text} :
    Fits shape (c :: rest) ↔ isDone shape = true ∨ ∃ left ∈ step c shape, Fits left rest := by
  constructor
  · intro h
    induction shape with
    | nil => exact .inl rfl
    | cons part parts ih =>
      cases h with
      | one hc h => exact .inr ⟨parts, by simp [step, hc], h⟩
      | skip h =>
        refine (ih h).imp_right ?_
        rintro ⟨left, hl, h⟩
        exact ⟨left, List.mem_append_right _ hl, h⟩
      | take hc h => exact .inr ⟨_, List.mem_append_left _ (by simp [hc]), h⟩
  · rintro (h | ⟨left, hl, h⟩)
    · exact fits_of_isDone h
    · induction shape with
      | nil => simp [step] at hl
      | cons part parts ih =>
        cases part with
        | one k =>
          simp only [step] at hl
          split at hl
          next hc =>
            obtain rfl := List.mem_singleton.1 hl
            exact .one hc h
          next => simp at hl
        | many k =>
          rcases List.mem_append.1 hl with hl | hl
          · split at hl
            next hc =>
              obtain rfl := List.mem_singleton.1 hl
              exact .take hc h
            next => simp at hl
          · exact .skip (ih hl)

theorem fitsAny_iff {shapes : List CallPattern} {t : Text} :
    fitsAny shapes t = true ↔ ∃ shape ∈ shapes, Fits shape t := by
  induction t generalizing shapes with
  | nil =>
    simp only [fitsAny, List.any_eq_true]
    exact exists_congr fun _ => and_congr_right fun _ => ⟨fits_of_isDone, isDone_of_fits⟩
  | cons c rest ih =>
    simp only [fitsAny, Bool.or_eq_true, List.any_eq_true, ih, List.mem_eraseDups,
      List.mem_flatMap, fits_cons_iff]
    constructor
    · rintro (⟨shape, hs, h⟩ | ⟨left, ⟨shape, hs, hl⟩, h⟩)
      · exact ⟨shape, hs, .inl h⟩
      · exact ⟨shape, hs, .inr ⟨left, hl, h⟩⟩
    · rintro ⟨shape, hs, h | ⟨left, hl, h⟩⟩
      · exact .inl ⟨shape, hs, h⟩
      · exact .inr ⟨left, ⟨shape, hs, hl⟩, h⟩

/-- Reading the text once finds out whether it can be cut along the shape. -/
theorem fits_iff {shape : CallPattern} {t : Text} : fits shape t = true ↔ Fits shape t := by
  simp [fits, fitsAny_iff]

end CallPattern

end StockFlow
