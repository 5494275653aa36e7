import StockFlow.Dialect.CallPattern
import StockFlow.Proofs.Characters

/-! Spellings of function names. A canonical name has single spaces between its words and none around
them; the shape of a call asks for a spelling of it, with letters in any case and blanks or
underscores for each space. Such a spelling has the same canonical name as long as its letters agree
in case: most characters differ from their upper case by folding alone, but some have none of one
character, and some fold together and are no upper case of each other. -/
namespace StockFlow

open Unicode (isBlank upperCase sameFold)

/-! ### Canonical names -/

theorem isNameSeparator_iff {c : Char} :
    isNameSeparator c = true ↔ c ∈ [' ', '_', '\t', '\n', '\r'] := by
  simp [isNameSeparator, or_assoc]

theorem canonicalName_eq (t : Text) : canonicalName t = match t.dropWhile isNameSeparator with
    | [] => []
    | x :: rest => upperCase x ++ canonicalFrom true false rest := by
  induction t with
  | nil => rfl
  | cons c rest ih =>
    by_cases hc : isNameSeparator c = true
    · have hskip : canonicalName (c :: rest) = canonicalName rest := by
        simp [canonicalName, canonicalFrom, hc]
      rw [hskip, ih, List.dropWhile_cons_of_pos hc]
    · rw [List.dropWhile_cons_of_neg hc]
      simp [canonicalName, canonicalFrom, hc]

/-- The upper case of the first character that is no separator begins the name. -/
theorem head_canonicalName {t : Text} : ∀ c ∈ (canonicalName t).head?,
    ∃ x ∈ (t.dropWhile isNameSeparator).head?, c ∈ upperCase x := by
  intro c hc
  rw [canonicalName_eq] at hc
  cases hd : t.dropWhile isNameSeparator with
  | nil => simp [hd] at hc
  | cons x rest =>
    rw [hd] at hc
    simp only [List.head?_append_of_ne_nil _ (Unicode.upperCase_ne_nil x)] at hc
    exact ⟨x, rfl, List.mem_of_mem_head? hc⟩

theorem caseless_of_isNameSeparator {c : Char} (h : isNameSeparator c = true) :
    Unicode.caseless.contains c.toNat = true := by
  simp only [isNameSeparator, Bool.or_eq_true, beq_iff_eq] at h
  rcases h with (((rfl | rfl) | rfl) | rfl) | rfl <;> decide

theorem not_isNameSeparator_head (t : Text) :
    ∀ x ∈ (t.dropWhile isNameSeparator).head?, isNameSeparator x = false := by
  intro x hx
  have h := List.head?_dropWhile_not isNameSeparator t
  rw [Option.mem_def] at hx
  rw [hx] at h
  simpa using h

/-- A canonical name begins with a character that is no separator. -/
theorem not_isNameSeparator_head_canonicalName (t : Text) :
    ∀ c ∈ (canonicalName t).head?, isNameSeparator c = false := by
  intro c hc
  obtain ⟨x, hx, hcx⟩ := head_canonicalName c hc
  by_contra hsep
  have hsep : isNameSeparator c = true := by simpa using hsep
  obtain rfl := Unicode.eq_of_mem_upperCase hcx (caseless_of_isNameSeparator hsep)
  simp [not_isNameSeparator_head t c hx] at hsep

theorem canonicalFrom_separator {started due : Bool} {c : Char} (h : isNameSeparator c = true)
    (t : Text) : canonicalFrom started due (c :: t) = canonicalFrom started started t := by
  simp [canonicalFrom, h]

theorem canonicalFrom_letter {started due : Bool} {c : Char} (h : isNameSeparator c = false)
    (t : Text) : canonicalFrom started due (c :: t) =
      (if due then [' '] else []) ++ upperCase c ++ canonicalFrom true false t := by
  simp [canonicalFrom, h]

/-- A name that begins with a letter may as well stand inside a longer one. -/
theorem canonicalName_eq_canonicalFrom {t : Text}
    (h : ∀ c ∈ t.head?, isNameSeparator c = false) : canonicalName t = canonicalFrom true false t := by
  cases t with
  | nil => rfl
  | cons c rest => rw [canonicalName, canonicalFrom_letter (h c rfl), canonicalFrom_letter (h c rfl)]

theorem canonicalFrom_separators {gap : Text} (hn : gap ≠ [])
    (h : ∀ c ∈ gap, isNameSeparator c = true) (due : Bool) (t : Text) :
    canonicalFrom true due (gap ++ t) = canonicalFrom true true t := by
  induction gap generalizing due with
  | nil => exact absurd rfl hn
  | cons c gap ih =>
    obtain ⟨hc, hgap⟩ := List.forall_mem_cons.1 h
    rw [List.cons_append, canonicalFrom_separator hc]
    by_cases hg : gap = []
    · rw [hg, List.nil_append]
    · exact ih hg hgap true

theorem mem_canonicalFrom {started due : Bool} {t : Text} {c : Char}
    (h : c ∈ canonicalFrom started due t) :
    c = ' ' ∨ ∃ x ∈ t, isNameSeparator x = false ∧ c ∈ upperCase x := by
  induction t generalizing started due with
  | nil => simp [canonicalFrom] at h
  | cons y rest ih =>
    have htail {x : Char} (hx : x ∈ rest) : x ∈ y :: rest := .tail _ hx
    by_cases hy : isNameSeparator y = true
    · rw [canonicalFrom_separator hy] at h
      exact (ih h).imp_right fun ⟨x, hx, hc⟩ => ⟨x, htail hx, hc⟩
    · have hy : isNameSeparator y = false := by simpa using hy
      rw [canonicalFrom_letter hy, List.mem_append, List.mem_append] at h
      rcases h with (h | h) | h
      · exact .inl (by cases due <;> simp_all)
      · exact .inr ⟨y, .head _, hy, h⟩
      · exact (ih h).imp_right fun ⟨x, hx, hc⟩ => ⟨x, htail hx, hc⟩

/-- A canonical name has no separators but spaces. -/
theorem eq_space_of_mem_canonicalFrom {started due : Bool} {t : Text} {c : Char}
    (hc : c ∈ canonicalFrom started due t) (hs : isNameSeparator c = true) : c = ' ' := by
  refine (mem_canonicalFrom hc).resolve_right ?_
  rintro ⟨x, -, hx, hcx⟩
  rw [← Unicode.eq_of_mem_upperCase hcx (caseless_of_isNameSeparator hs), hs] at hx
  exact Bool.false_ne_true hx.symm

/-- Each space of a name is followed by a word. -/
inductive IsSpaced : Text → Prop where
  | nil : IsSpaced []
  | letter {d : Char} {name : Text} : d ≠ ' ' → IsSpaced name → IsSpaced (d :: name)
  | space {d : Char} {name : Text} : d ≠ ' ' → IsSpaced (d :: name) → IsSpaced (' ' :: d :: name)

theorem IsSpaced.append {word name : Text} (hw : ∀ c ∈ word, c ≠ ' ') (h : IsSpaced name) :
    IsSpaced (word ++ name) := by
  induction word with
  | nil => exact h
  | cons c word ih =>
    obtain ⟨hc, hword⟩ := List.forall_mem_cons.1 hw
    exact .letter hc (ih hword)

theorem isSpaced_canonicalFrom (started due : Bool) (t : Text) :
    IsSpaced (canonicalFrom started due t) := by
  induction t generalizing started due with
  | nil => exact .nil
  | cons c rest ih =>
    by_cases hc : isNameSeparator c = true
    · rw [canonicalFrom_separator hc]
      exact ih started started
    · have hletters : ∀ x ∈ upperCase c, x ≠ ' ' := by
        rintro x hx rfl
        rw [← Unicode.eq_of_mem_upperCase hx (by decide)] at hc
        exact hc (by decide)
      have hword := IsSpaced.append hletters (ih true false)
      rw [canonicalFrom_letter (by simpa using hc)]
      cases due with
      | false => exact hword
      | true =>
        obtain ⟨x, xs, hx⟩ := List.exists_cons_of_ne_nil (Unicode.upperCase_ne_nil c)
        rw [hx] at hword hletters ⊢
        exact .space (hletters x (.head _)) hword

namespace FunctionName

/-- The words of a canonical name are separated by spaces only. -/
theorem eq_space_of_mem (f : FunctionName) {c : Char} (hc : c ∈ f.text)
    (hs : isNameSeparator c = true) : c = ' ' := by
  obtain ⟨name, hname⟩ := f.isCanonical
  rw [← hname] at hc
  exact eq_space_of_mem_canonicalFrom hc hs

theorem isSpaced (f : FunctionName) : IsSpaced f.text := by
  obtain ⟨name, hname⟩ := f.isCanonical
  rw [← hname]
  exact isSpaced_canonicalFrom false false name

end FunctionName

/-! ### What the shape of a call asks for -/

/-- A text spells a name: letters in any case, and blanks or underscores for each space. -/
inductive Spells : Text → Text → Prop where
  | nil : Spells [] []
  | letter {d c : Char} {name t : Text} : d ≠ ' ' → sameFold d c = true → Spells name t →
      Spells (d :: name) (c :: t)
  | space {name gap t : Text} : gap ≠ [] → (∀ c ∈ gap, CharClass.separator.holds c = true) →
      Spells name t → Spells (' ' :: name) (gap ++ t)

theorem Spells.refl (name : Text) : Spells name name := by
  induction name with
  | nil => exact .nil
  | cons c name ih =>
    by_cases hc : c = ' '
    · have hsep : CharClass.separator.holds ' ' = true := by decide
      have hspace : Spells (' ' :: name) ([' '] ++ name) := .space (by simp) (by simpa using hsep) ih
      rwa [hc]
    · exact .letter hc (by simp [sameFold]) ih

theorem Spells.ne_nil {name s : Text} (h : Spells name s) (hn : name ≠ []) : s ≠ [] := by
  cases h with
  | nil => exact absurd rfl hn
  | letter => exact List.cons_ne_nil _ _
  | space hgap => exact List.append_ne_nil_of_left_ne_nil hgap _

theorem Spells.mem {name s : Text} (h : Spells name s) : ∀ c ∈ s,
    CharClass.separator.holds c = true ∨ ∃ d ∈ name, sameFold d c = true := by
  induction h with
  | nil => simp
  | @letter d c name t _ hfold _ ih =>
    refine List.forall_mem_cons.2 ⟨.inr ⟨d, .head _, hfold⟩, fun x hx => ?_⟩
    exact (ih x hx).imp_right fun ⟨e, he, hx⟩ => ⟨e, .tail _ he, hx⟩
  | space _ hgap _ ih =>
    intro x hx
    rcases List.mem_append.1 hx with hx | hx
    · exact .inl (hgap x hx)
    · exact (ih x hx).imp_right fun ⟨e, he, hx⟩ => ⟨e, .tail _ he, hx⟩

/-- A spelling begins with a letter, if the name does. -/
theorem Spells.head {name s : Text} (h : Spells name s) (hn : name.head? ≠ some ' ') :
    ∀ c ∈ s.head?, ∃ d ∈ name, d ≠ ' ' ∧ sameFold d c = true := by
  cases h with
  | nil => simp
  | @letter d c name t hd hfold =>
    intro x hx
    obtain rfl : c = x := by simpa using hx
    exact ⟨d, .head _, hd, hfold⟩
  | space => exact absurd rfl hn

/-- A spelling ends with a letter. -/
theorem Spells.last {name s : Text} (h : Spells name s) (hn : IsSpaced name) :
    ∀ c ∈ s.getLast?, ∃ d ∈ name, d ≠ ' ' ∧ sameFold d c = true := by
  induction h with
  | nil => simp
  | @letter d c name t hd hfold h ih =>
    have hspaced : IsSpaced name := by
      cases hn with
      | letter _ h => exact h
      | space => exact absurd rfl hd
    intro x hx
    cases t with
    | nil =>
      obtain rfl : c = x := by simpa using hx
      exact ⟨d, .head _, hd, hfold⟩
    | cons y t =>
      obtain ⟨e, he, hx⟩ := ih hspaced x (by simpa using hx)
      exact ⟨e, .tail _ he, hx⟩
  | @space name gap t _ _ h ih =>
    cases hn with
    | letter hne => exact absurd rfl hne
    | @space d name hd hspaced =>
      intro x hx
      have ht : t ≠ [] := h.ne_nil (List.cons_ne_nil d name)
      rw [List.getLast?_append_of_ne_nil _ ht] at hx
      obtain ⟨e, he, hx⟩ := ih hspaced x hx
      exact ⟨e, .tail _ he, hx⟩

namespace CallPattern

/-- The shape of one character of a name. -/
def ofLetter (d : Char) : CallPattern :=
  if d = ' ' then [.one .separator, .many .separator] else [.one (.letter d)]

theorem intercalate_ofWord (name : Text) :
    List.intercalate [.one .separator, .many .separator]
      ((Text.split (· == ' ') name).map ofWord) = name.flatMap ofLetter := by
  induction name with
  | nil => rfl
  | cons c rest ih =>
    rw [List.flatMap_cons, ← ih]
    by_cases hc : c = ' '
    · simp [Text.split, Text.cut, hc, ofLetter, ofWord, List.intercalate_cons_cons]
    · cases hcut : (Text.cut (· == ' ') rest).2 with
      | nil => simp [Text.split, Text.cut, hc, ofLetter, ofWord, hcut]
      | cons w ws =>
        simp [Text.split, Text.cut, hc, ofLetter, ofWord, hcut, List.intercalate_cons_cons]

theorem ofFunction_eq (f : FunctionName) : ofFunction f =
    .many .blank :: (f.text.flatMap ofLetter ++ [.many .blank, .one .openParen]) := by
  rw [ofFunction, intercalate_ofWord]

theorem fits_one_iff {k : CharClass} {parts : CallPattern} {t : Text} :
    Fits (.one k :: parts) t ↔ ∃ c rest, t = c :: rest ∧ k.holds c = true ∧ Fits parts rest := by
  constructor
  · intro h
    cases h with
    | one hc h => exact ⟨_, _, rfl, hc, h⟩
  · rintro ⟨c, rest, rfl, hc, h⟩
    exact .one hc h

theorem fits_many_iff {k : CharClass} {parts : CallPattern} {t : Text} :
    Fits (.many k :: parts) t ↔
      ∃ s rest, t = s ++ rest ∧ (∀ c ∈ s, k.holds c = true) ∧ Fits parts rest := by
  constructor
  · intro h
    induction t with
    | nil =>
      cases h with
      | skip h => exact ⟨[], [], rfl, by simp, h⟩
    | cons c t ih =>
      cases h with
      | skip h => exact ⟨[], c :: t, rfl, by simp, h⟩
      | take hc h =>
        obtain ⟨s, rest, rfl, hs, h⟩ := ih h
        exact ⟨c :: s, rest, rfl, List.forall_mem_cons.2 ⟨hc, hs⟩, h⟩
  · rintro ⟨s, rest, rfl, hs, h⟩
    induction s with
    | nil => exact .skip h
    | cons c s ih =>
      obtain ⟨hc, hs⟩ := List.forall_mem_cons.1 hs
      exact .take hc (ih hs)

theorem fits_name_iff {name : Text} {parts : CallPattern} {t : Text} :
    Fits (name.flatMap ofLetter ++ parts) t ↔
      ∃ s rest, t = s ++ rest ∧ Spells name s ∧ Fits parts rest := by
  constructor
  · intro h
    induction name generalizing t with
    | nil => exact ⟨[], t, rfl, .nil, h⟩
    | cons d name ih =>
      rw [List.flatMap_cons, List.append_assoc] at h
      by_cases hd : d = ' '
      · rw [ofLetter, if_pos hd] at h
        obtain ⟨c, rest, rfl, hc, h⟩ := fits_one_iff.1 h
        obtain ⟨gap, rest, rfl, hgap, h⟩ := fits_many_iff.1 h
        obtain ⟨s, rest, rfl, hs, h⟩ := ih h
        rw [hd]
        exact ⟨c :: gap ++ s, rest, by simp,
          .space (List.cons_ne_nil c gap) (List.forall_mem_cons.2 ⟨hc, hgap⟩) hs, h⟩
      · rw [ofLetter, if_neg hd] at h
        obtain ⟨c, rest, rfl, hc, h⟩ := fits_one_iff.1 h
        obtain ⟨s, rest, rfl, hs, h⟩ := ih h
        exact ⟨c :: s, rest, rfl, .letter hd hc hs, h⟩
  · rintro ⟨s, rest, rfl, hs, h⟩
    induction hs with
    | nil => exact h
    | @letter d c name t hd hc _ ih =>
      rw [List.flatMap_cons, List.append_assoc, ofLetter, if_neg hd]
      exact .one hc ih
    | @space name gap t hn hgap _ ih =>
      obtain ⟨c, gap, rfl⟩ := List.exists_cons_of_ne_nil hn
      obtain ⟨hc, hgap⟩ := List.forall_mem_cons.1 hgap
      rw [List.flatMap_cons, List.append_assoc, ofLetter, if_pos rfl]
      refine .one hc (fits_many_iff.2 ⟨gap, t ++ rest, by simp, hgap, ih⟩)

/-- A text has the shape of a call just when it starts with a spelling of the name and a parenthesis,
and blanks around the spelling. -/
theorem fits_ofFunction_iff {f : FunctionName} {t : Text} : Fits (ofFunction f) t ↔
    ∃ before s after rest, t = before ++ s ++ after ++ '(' :: rest ∧
      (∀ c ∈ before, isBlank c = true) ∧ Spells f.text s ∧ ∀ c ∈ after, isBlank c = true := by
  simp only [ofFunction_eq, fits_many_iff, fits_name_iff, fits_one_iff]
  constructor
  · rintro ⟨before, _, rfl, hb, s, _, rfl, hs, after, _, rfl, ha, c, rest, rfl, hc, -⟩
    obtain rfl : c = '(' := by simpa [CharClass.holds] using hc
    exact ⟨before, s, after, rest, by simp, hb, hs, ha⟩
  · rintro ⟨before, s, after, rest, rfl, hb, hs, ha⟩
    exact ⟨before, _, by simp, hb, s, _, rfl, hs, after, _, rfl, ha, '(', rest, rfl, rfl, .nil⟩

/-- A function is called by its own name. -/
theorem fits_call (f : FunctionName) (arguments : Text) :
    Fits (ofFunction f) (f.text ++ '(' :: arguments) :=
  fits_ofFunction_iff.2 ⟨[], f.text, [], arguments, by simp, by simp, .refl _, by simp⟩

theorem fits_nil (f : FunctionName) : (ofFunction f).fits [] = false := by
  by_contra h
  have hfits : Fits (ofFunction f) [] := fits_iff.1 (by simpa using h)
  obtain ⟨before, s, after, rest, heq, -⟩ := fits_ofFunction_iff.1 hfits
  simp at heq

end CallPattern

/-! ### Letters that agree in case -/

/-- Whether the character is a letter of the name does not depend on how it is asked: by folding case,
or by its upper case. -/
structure AgreesInCase (name : Text) (c : Char) : Prop where
  upper : ∀ d ∈ name, sameFold d c = true → upperCase c = [d]
  folds : upperCase c ⊆ name → ∃ d, upperCase c = [d] ∧ sameFold d c = true

theorem isNameSeparator_of_holds {c : Char} (h : CharClass.separator.holds c = true)
    (hc : isBlank c = true → Piece.isSpacing c = true) : isNameSeparator c = true := by
  simp only [CharClass.holds, Bool.or_eq_true, beq_iff_eq] at h
  simp only [Piece.isSpacing, Bool.or_eq_true, beq_iff_eq] at hc
  rw [isNameSeparator_iff]
  rcases h with h | h
  · rcases hc h with h | h <;> simp [h]
  · simp [h]

theorem holds_of_isNameSeparator {c : Char} (h : isNameSeparator c = true) :
    CharClass.separator.holds c = true := by
  simp only [isNameSeparator, Bool.or_eq_true, beq_iff_eq] at h
  rcases h with (((rfl | rfl) | rfl) | rfl) | rfl <;> decide

/-- A name, or what is left of it, has the letters of each of its spellings in upper case. -/
theorem Spells.canonicalFrom_eq {whole name s : Text} (h : Spells name s) (hn : IsSpaced name)
    (hsub : name ⊆ whole) (hsep : ∀ d ∈ whole, isNameSeparator d = true → d = ' ')
    (hagree : ∀ c ∈ s, AgreesInCase whole c)
    (hblank : ∀ c ∈ s, isBlank c = true → Piece.isSpacing c = true) :
    canonicalFrom true false s = name := by
  have hletter {d c : Char} (hd : d ∈ whole) (hne : d ≠ ' ') (hfold : sameFold d c = true)
      (hc : AgreesInCase whole c) : upperCase c = [d] ∧ isNameSeparator c = false := by
    have hu := hc.upper d hd hfold
    refine ⟨hu, ?_⟩
    by_contra hs
    have hs : isNameSeparator c = true := by simpa using hs
    have hcase := Unicode.upperCase_of_caseless (caseless_of_isNameSeparator hs)
    obtain rfl : c = d := List.singleton_inj.1 (hcase.symm.trans hu)
    exact hne (hsep c hd hs)
  induction h with
  | nil => rfl
  | @letter d c name t hd hfold _ ih =>
    obtain ⟨hdw, hsub⟩ := List.cons_subset.1 hsub
    obtain ⟨hc, hagree⟩ := List.forall_mem_cons.1 hagree
    obtain ⟨-, hblank⟩ := List.forall_mem_cons.1 hblank
    obtain ⟨hu, hs⟩ := hletter hdw hd hfold hc
    have hspaced : IsSpaced name := by
      cases hn with
      | letter _ h => exact h
      | space => exact absurd rfl hd
    rw [canonicalFrom_letter hs, hu, ih hspaced hsub hagree hblank]
    rfl
  | @space name gap t hgap hseps h ih =>
    obtain ⟨-, hsub⟩ := List.cons_subset.1 hsub
    have hgaps : ∀ c ∈ gap, isNameSeparator c = true := fun c hc =>
      isNameSeparator_of_holds (hseps c hc) (hblank c (List.mem_append_left _ hc))
    have hagree : ∀ c ∈ t, AgreesInCase whole c := fun c hc =>
      hagree c (List.mem_append_right _ hc)
    have hblank : ∀ c ∈ t, isBlank c = true → Piece.isSpacing c = true := fun c hc =>
      hblank c (List.mem_append_right _ hc)
    rw [canonicalFrom_separators hgap hgaps]
    cases hn with
    | letter hne => exact absurd rfl hne
    | @space d name hd hspaced =>
      have htail := ih hspaced hsub hagree hblank
      cases h with
      | space => exact absurd rfl hd
      | @letter d c name t _ hfold _ =>
        obtain ⟨-, hs⟩ := hletter (hsub (.head _)) hd hfold (hagree c (.head _))
        rw [canonicalFrom_letter hs] at htail ⊢
        rw [← htail]
        rfl

/-- A text that ends with a letter spells its canonical name. -/
theorem spells_canonicalFrom {name s : Text} (hlast : ∀ c ∈ s.getLast?, isNameSeparator c = false)
    (hagree : ∀ c ∈ s, AgreesInCase name c) :
    (canonicalFrom true false s ⊆ name → Spells (canonicalFrom true false s) s) ∧
    ∀ gap, gap ≠ [] → (∀ c ∈ gap, isNameSeparator c = true) → s ≠ [] →
      canonicalFrom true true s ⊆ name → Spells (canonicalFrom true true s) (gap ++ s) := by
  induction s with
  | nil => exact ⟨fun _ => .nil, fun gap _ _ hn => absurd rfl hn⟩
  | cons c rest ih =>
    obtain ⟨hc, hagree⟩ := List.forall_mem_cons.1 hagree
    have hrest : ∀ x ∈ rest.getLast?, isNameSeparator x = false := by
      intro x hx
      refine hlast x ?_
      cases rest with
      | nil => simp at hx
      | cons y rest => simpa using hx
    obtain ⟨hplain, hdue⟩ := ih hrest hagree
    by_cases hs : isNameSeparator c = true
    · have hn : rest ≠ [] := by
        rintro rfl
        simp [hlast c rfl] at hs
      rw [canonicalFrom_separator hs, canonicalFrom_separator hs]
      refine ⟨hdue [c] (by simp) (by simpa using hs) hn, fun gap _ hgap _ hsub => ?_⟩
      have hgaps : ∀ x ∈ gap ++ [c], isNameSeparator x = true := by
        intro x hx
        rcases List.mem_append.1 hx with hx | hx
        · exact hgap x hx
        · rwa [List.mem_singleton.1 hx]
      have hspells := hdue (gap ++ [c]) (by simp) hgaps hn hsub
      rwa [List.append_assoc, List.singleton_append] at hspells
    · have hs : isNameSeparator c = false := by simpa using hs
      have hword (hsub : upperCase c ++ canonicalFrom true false rest ⊆ name) :
          Spells (upperCase c ++ canonicalFrom true false rest) (c :: rest) := by
        obtain ⟨hcase, hsub⟩ := List.append_subset.1 hsub
        obtain ⟨u, hu, hfold⟩ := hc.folds hcase
        have hspace : u ≠ ' ' := by
          rintro rfl
          rw [← Unicode.eq_of_mem_upperCase (c := c) (x := ' ') (by simp [hu]) (by decide)] at hs
          exact absurd hs (by decide)
        rw [hu]
        exact .letter hspace hfold (hplain hsub)
      rw [canonicalFrom_letter hs, canonicalFrom_letter hs]
      refine ⟨hword, fun gap hn hgap _ hsub => ?_⟩
      exact .space hn (fun x hx => holds_of_isNameSeparator (hgap x hx))
        (hword (List.cons_subset.1 hsub).2)

end StockFlow
