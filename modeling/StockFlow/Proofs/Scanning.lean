import StockFlow.Equation.Piece
import StockFlow.Proofs.Characters
import StockFlow.Proofs.Trimming

/-! The pieces of a text. Their sources are the text, and a piece does not depend on what follows it
as long as its own source is there: a text that is cut after some of its pieces has just these
pieces. The lookahead of a scanner goes beyond what it takes, so each of them is shown to take the
same from a text that is cut anywhere after that. -/
namespace StockFlow.Text

/-! ### The first separator -/

theorem breakAt?_append_cons {c : Char} {before after : Text} (h : c ∉ before) :
    breakAt? c (before ++ c :: after) = some (before, after) := by
  induction before with
  | nil => simp [breakAt?]
  | cons d rest ih =>
    obtain ⟨hd, hr⟩ := by simpa using h
    simp [breakAt?, Ne.symm hd, ih hr]

theorem breakAt?_eq_none {c : Char} {t : Text} : breakAt? c t = none ↔ c ∉ t := by
  constructor
  · intro h hc
    obtain ⟨s, u, rfl, hs⟩ := List.eq_append_cons_of_mem hc
    simp [breakAt?_append_cons hs] at h
  · intro h
    cases hb : breakAt? c t with
    | none => rfl
    | some r =>
      obtain ⟨rfl, -⟩ := breakAt?_eq_some hb
      simp at h

end StockFlow.Text

namespace StockFlow.Piece

open Unicode (isBlank)

/-! ### Scanners that take a stretch -/

/-- What `f` takes from a text it takes from any start of the text that holds so much. -/
def Stable (f : Text → Text) : Prop :=
  ∀ t u : Text, (f (t ++ u)).length ≤ t.length → f t = f (t ++ u)

theorem stable_takeWhile (p : Char → Bool) : Stable (List.takeWhile p) := by
  intro t u h
  rw [List.takeWhile_append] at h ⊢
  split
  next hl =>
    rw [if_pos hl, List.length_append] at h
    have hu : List.takeWhile p u = [] := List.eq_nil_of_length_eq_zero (by omega)
    have ht : List.takeWhile p t = t := (List.takeWhile_prefix p).eq_of_length hl
    rw [hu, ht, List.append_nil]
  next => rfl

theorem stable_dropTrailing_takeWhile (p q : Char → Bool) :
    Stable fun t => Text.dropTrailing q (t.takeWhile p) := by
  intro t u h
  simp only at h ⊢
  rw [List.takeWhile_append] at h ⊢
  split
  next hl =>
    rw [if_pos hl] at h
    have ht : List.takeWhile p t = t := (List.takeWhile_prefix p).eq_of_length hl
    -- all that is taken beyond the cut is dropped again
    by_cases hu : Text.dropTrailing q (List.takeWhile p u) = []
    · obtain ⟨s, hs, hq⟩ := Text.exists_dropTrailing q (List.takeWhile p u)
      rw [hu, List.nil_append] at hs
      rw [ht, hs, Text.dropTrailing_append hq]
    · rw [Text.dropTrailing_append_of_ne_nil hu, List.length_append] at h
      exact absurd (List.eq_nil_of_length_eq_zero (by omega)) hu
  next => rfl

/-- A character of a quoted text ends it, or the text goes on after it. -/
theorem throughClosing_cons (delimiter : Char) (escaped : Bool) (c : Char) :
    (c = delimiter ∧ ∀ t, throughClosing delimiter escaped (c :: t) = [c]) ∨
      ∃ escaped', ∀ t, throughClosing delimiter escaped (c :: t) =
        c :: throughClosing delimiter escaped' t := by
  cases escaped with
  | true => exact .inr ⟨false, fun t => rfl⟩
  | false =>
    by_cases hslash : c = '\\'
    · exact .inr ⟨true, fun t => by rw [throughClosing, if_pos hslash]⟩
    · by_cases hc : c = delimiter
      · exact .inl ⟨hc, fun t => by rw [throughClosing, if_neg hslash, if_pos hc]⟩
      · exact .inr ⟨false, fun t => by rw [throughClosing, if_neg hslash, if_neg hc]⟩

theorem stable_throughClosing (delimiter : Char) (escaped : Bool) :
    Stable (throughClosing delimiter escaped) := by
  intro t u h
  induction t generalizing escaped with
  | nil =>
    simp only [List.nil_append, List.length_nil, Nat.le_zero] at h ⊢
    rw [List.eq_nil_of_length_eq_zero h]
    rfl
  | cons c rest ih =>
    rw [List.cons_append] at h ⊢
    rcases throughClosing_cons delimiter escaped c with ⟨-, hends⟩ | ⟨escaped', hgoes⟩
    · rw [hends, hends]
    · rw [hgoes] at h
      rw [hgoes, hgoes, ih escaped' (Nat.le_of_succ_le_succ h)]

theorem prefix_throughClosing (delimiter : Char) (escaped : Bool) (t : Text) :
    throughClosing delimiter escaped t <+: t := by
  induction t generalizing escaped with
  | nil => exact List.prefix_rfl
  | cons c rest ih =>
    rcases throughClosing_cons delimiter escaped c with ⟨-, hends⟩ | ⟨escaped', hgoes⟩
    · rw [hends]
      exact ⟨rest, rfl⟩
    · rw [hgoes]
      exact List.cons_prefix_cons.2 ⟨rfl, ih escaped'⟩

theorem stable_fraction : Stable fraction := by
  intro t u h
  match t with
  | [] =>
    simp only [List.nil_append, List.length_nil, Nat.le_zero] at h ⊢
    rw [List.eq_nil_of_length_eq_zero h]
    rfl
  | c :: rest =>
    by_cases hc : c = '.'
    · subst hc
      simp only [List.cons_append, fraction, List.length_cons] at h ⊢
      rw [stable_takeWhile _ rest u (by omega)]
    · simp [fraction, hc]

theorem prefix_fraction (t : Text) : fraction t <+: t := by
  unfold fraction
  split
  · exact List.cons_prefix_cons.2 ⟨rfl, List.takeWhile_prefix _⟩
  · exact List.nil_prefix

/-- The sign of an exponent. -/
def sign (t : Text) : Text := (t.take 1).filter fun c => c == '+' || c == '-'

theorem prefix_sign (t : Text) : sign t <+: t := by
  cases t with
  | nil => exact List.nil_prefix
  | cons c rest =>
    by_cases hc : (c == '+' || c == '-') = true
    · simp [sign, hc]
    · simp [sign, hc]

theorem exponent_cons (e : Char) (rest : Text) :
    exponent (e :: rest) =
      if e = 'e' ∨ e = 'E' then
        if ((rest.drop (sign rest).length).takeWhile Char.isDigit) = [] then []
        else e :: sign rest ++ (rest.drop (sign rest).length).takeWhile Char.isDigit
      else [] := by
  simp only [exponent, sign]
  split
  · split <;> simp_all
  · rfl

theorem prefix_exponent (t : Text) : exponent t <+: t := by
  cases t with
  | nil => exact List.nil_prefix
  | cons e rest =>
    rw [exponent_cons]
    split
    · split
      · exact List.nil_prefix
      · have hm := (List.prefix_append_right_inj (sign rest)).2
          (List.takeWhile_prefix (l := rest.drop (sign rest).length) Char.isDigit)
        rw [List.prefix_iff_eq_append.1 (prefix_sign rest)] at hm
        exact List.cons_prefix_cons.2 ⟨rfl, hm⟩
    · exact List.nil_prefix

theorem takeWhile_eq_nil_of_append {p : Char → Bool} {t u : Text}
    (h : (t ++ u).takeWhile p = []) : t.takeWhile p = [] := by
  rw [List.takeWhile_append] at h
  split at h
  next hl =>
    rw [(List.append_eq_nil_iff.1 h).1]
    rfl
  next => exact h

theorem stable_exponent : Stable exponent := by
  intro t u h
  match t with
  | [] =>
    simp only [List.nil_append, List.length_nil, Nat.le_zero] at h ⊢
    rw [List.eq_nil_of_length_eq_zero h]
    rfl
  | e :: rest =>
    rw [List.cons_append, exponent_cons] at h ⊢
    rw [exponent_cons]
    split
    next he =>
      rw [if_pos he] at h
      by_cases hd : (List.drop (sign (rest ++ u)).length (rest ++ u)).takeWhile Char.isDigit = []
      · rw [if_pos hd]
        match rest with
        | [] => rfl
        | c :: rest =>
          have hs : sign (c :: rest ++ u) = sign (c :: rest) := rfl
          have hl := (prefix_sign (c :: rest)).length_le
          rw [hs, List.drop_append_of_le_length hl] at hd
          rw [if_pos (takeWhile_eq_nil_of_append hd)]
      · rw [if_neg hd] at h ⊢
        simp only [List.length_append, List.length_cons] at h
        have hpos := List.length_pos_of_ne_nil hd
        match rest with
        | [] =>
          simp only [List.length_nil] at h
          omega
        | c :: rest =>
          have hs : sign (c :: rest ++ u) = sign (c :: rest) := rfl
          have hl := (prefix_sign (c :: rest)).length_le
          rw [hs, List.drop_append_of_le_length hl] at h hd ⊢
          simp only [List.length_cons] at h hl
          have ht := stable_takeWhile Char.isDigit ((c :: rest).drop (sign (c :: rest)).length) u
            (by rw [List.length_drop, List.length_cons]; omega)
          rw [ht, if_neg hd]
    next => rfl

/-- One scanner after another. -/
def andThen (f g : Text → Text) (t : Text) : Text := f t ++ g (t.drop (f t).length)

theorem prefix_andThen {f g : Text → Text} (hf : ∀ t, f t <+: t) (hg : ∀ t, g t <+: t) (t : Text) :
    andThen f g t <+: t := by
  have h := (List.prefix_append_right_inj (f t)).2 (hg (t.drop (f t).length))
  rwa [List.prefix_iff_eq_append.1 (hf t)] at h

theorem Stable.andThen {f g : Text → Text} (hf : Stable f) (hg : Stable g) :
    Stable (andThen f g) := by
  intro t u h
  simp only [Piece.andThen, List.length_append] at h ⊢
  have hl : (f (t ++ u)).length ≤ t.length := by omega
  rw [List.drop_append_of_le_length hl] at h ⊢
  rw [hf t u hl]
  rw [hg _ u (by rw [List.length_drop]; omega)]

def numeralPart (c : Char) (t : Text) : Text := if c = '.' then [] else fraction t

theorem numeral_eq (c : Char) (rest : Text) :
    numeral c rest =
      c :: andThen (List.takeWhile Char.isDigit) (andThen (numeralPart c) exponent) rest := by
  simp [numeral, andThen, numeralPart, List.drop_drop]

theorem stable_numeral (c : Char) :
    Stable (andThen (List.takeWhile Char.isDigit) (andThen (numeralPart c) exponent)) := by
  refine (stable_takeWhile _).andThen (Stable.andThen ?_ stable_exponent)
  intro t u h
  simp only [numeralPart] at h ⊢
  split
  · rfl
  next hc =>
    rw [if_neg hc] at h
    exact stable_fraction t u h

theorem prefix_numeral (c : Char) (rest : Text) :
    andThen (List.takeWhile Char.isDigit) (andThen (numeralPart c) exponent) rest <+: rest := by
  refine prefix_andThen (fun t => List.takeWhile_prefix _) (prefix_andThen (fun t => ?_)
    prefix_exponent) rest
  unfold numeralPart
  split
  · exact List.nil_prefix
  · exact prefix_fraction t

/-- What a bare name holds after its first character. -/
def nameTail (rest : Text) : Text :=
  Text.dropTrailing isSpacing (rest.takeWhile fun c => isNameContinue c || isSpacing c)

theorem stable_nameTail : Stable nameTail := stable_dropTrailing_takeWhile _ _

theorem prefix_nameTail (rest : Text) : nameTail rest <+: rest :=
  (List.rdropWhile_prefix _ _).trans (List.takeWhile_prefix _)

/-! ### Names with their subscripts -/

/-- How a name goes on: with a subscript, after some blanks, or not. -/
theorem named_cases (name rest : Text) :
    (∃ subscript after, rest = rest.takeWhile isSpacing ++ '[' :: subscript ++ ']' :: after ∧
      ']' ∉ subscript ∧
      named name rest = lexeme (name ++ rest.takeWhile isSpacing ++ '[' :: subscript ++ [']'])
        (.subscripted name subscript)) ∨
    ((∀ inside, rest.dropWhile isSpacing = '[' :: inside → ']' ∉ inside) ∧
      named name rest = lexeme name (.ident name)) := by
  unfold named
  split
  next inside hi =>
    split
    next subscript after hb =>
      obtain ⟨rfl, hs⟩ := Text.breakAt?_eq_some hb
      refine .inl ⟨subscript, after, ?_, hs, rfl⟩
      conv_lhs => rw [← List.takeWhile_append_dropWhile (p := isSpacing) (l := rest), hi]
      simp
    next hb =>
      refine .inr ⟨fun inside' hi' => ?_, rfl⟩
      obtain rfl : inside = inside' := by simpa [hi] using hi'
      exact Text.breakAt?_eq_none.1 hb
  next hn => exact .inr ⟨fun inside hi => absurd hi (hn inside), rfl⟩

theorem named_subscripted {name spaces subscript after : Text}
    (hsp : ∀ c ∈ spaces, isSpacing c = true) (hs : ']' ∉ subscript) :
    named name (spaces ++ '[' :: subscript ++ ']' :: after) =
      lexeme (name ++ spaces ++ '[' :: subscript ++ [']']) (.subscripted name subscript) := by
  have hd : (spaces ++ '[' :: subscript ++ ']' :: after).dropWhile isSpacing =
      '[' :: (subscript ++ ']' :: after) := by
    rw [List.append_assoc, List.dropWhile_append_of_pos hsp]
    exact List.dropWhile_cons_of_neg (by decide)
  have ht : (spaces ++ '[' :: subscript ++ ']' :: after).takeWhile isSpacing = spaces := by
    rw [List.append_assoc, List.takeWhile_append_of_pos hsp]
    simp [List.takeWhile_cons_of_neg (show ¬ isSpacing '[' = true by decide)]
  unfold named
  rw [hd, ht]
  simp only [Text.breakAt?_append_cons hs]

theorem named_ident {name rest : Text}
    (h : ∀ inside, rest.dropWhile isSpacing = '[' :: inside → ']' ∉ inside) :
    named name rest = lexeme name (.ident name) := by
  rcases named_cases name rest with ⟨subscript, after, hr, -, -⟩ | ⟨-, hn⟩
  · refine absurd (List.mem_append_right subscript (.head after)) (h (subscript ++ ']' :: after) ?_)
    have hsp : ∀ c ∈ rest.takeWhile isSpacing, isSpacing c = true := fun c => List.mem_takeWhile_imp
    conv_lhs => rw [hr]
    rw [List.append_assoc, List.dropWhile_append_of_pos hsp]
    exact List.dropWhile_cons_of_neg (by decide)
  · exact hn

theorem named_source (name rest : Text) :
    ∃ more, (named name rest).source = name ++ more ∧ more <+: rest := by
  rcases named_cases name rest with ⟨subscript, after, hr, -, hn⟩ | ⟨-, hn⟩
  · refine ⟨rest.takeWhile isSpacing ++ '[' :: subscript ++ [']'], ?_, after, ?_⟩
    · rw [hn]
      simp [source]
    · conv_rhs => rw [hr]
      simp
  · exact ⟨[], by simp [hn, source], List.nil_prefix⟩

theorem named_append {name t u : Text}
    (h : (named name (t ++ u)).source.length ≤ name.length + t.length) :
    named name t = named name (t ++ u) := by
  rcases named_cases name (t ++ u) with ⟨subscript, after, hr, hs, hn⟩ | ⟨hi, hn⟩
  · -- the closing bracket stands before the cut
    rw [hn] at h ⊢
    generalize hsp : (t ++ u).takeWhile isSpacing = spaces at hr h
    have hall : ∀ c ∈ spaces, isSpacing c = true := fun c hc => by
      rw [← hsp] at hc
      exact List.mem_takeWhile_imp hc
    have hr' : t ++ u = (spaces ++ '[' :: subscript ++ [']']) ++ after := by simpa using hr
    have hl : (spaces ++ '[' :: subscript ++ [']']).length ≤ t.length := by
      simp only [source, List.length_append, List.length_cons, List.length_nil] at h ⊢
      omega
    obtain ⟨after', rfl⟩ :=
      List.prefix_of_prefix_length_le ⟨after, hr'.symm⟩ (List.prefix_append t u) hl
    have ht : named name (spaces ++ '[' :: subscript ++ ']' :: after') = _ :=
      named_subscripted hall hs
    simpa using ht
  · rw [hn]
    refine named_ident fun inside hd hc => hi (inside ++ u) ?_ (List.mem_append_left u hc)
    rw [List.dropWhile_append, hd]
    simp

/-! ### The first piece -/

/-- Whether a colon before `rest` opens a keyword. -/
def OpensKeyword (rest : Text) : Prop :=
  rest.takeWhile isKeywordCharacter ≠ [] ∧
    (rest.drop (rest.takeWhile isKeywordCharacter).length).head? = some ':'

theorem afterColon_keyword {rest : Text} (h : OpensKeyword rest) :
    afterColon rest = lexeme (':' :: rest.takeWhile isKeywordCharacter ++ [':'])
      (.keyword (rest.takeWhile isKeywordCharacter)) :=
  if_pos h

theorem afterColon_operator {rest : Text} (h : ¬ OpensKeyword rest) :
    afterColon rest = if rest.head? = some '=' then lexeme [':', '='] (.op [':', '='])
      else lexeme [':'] (.op [':']) :=
  if_neg h

/-- The colon that ends a keyword stands right after its word. -/
theorem OpensKeyword.append {t : Text} (h : OpensKeyword t) (u : Text) :
    OpensKeyword (t ++ u) ∧ (t ++ u).takeWhile isKeywordCharacter =
      t.takeWhile isKeywordCharacter := by
  have hl : (t.takeWhile isKeywordCharacter).length < t.length := by
    by_contra hl
    have hd := List.drop_eq_nil_of_le (Nat.le_of_not_lt hl)
    simp [OpensKeyword, hd] at h
  have ht : (t ++ u).takeWhile isKeywordCharacter = t.takeWhile isKeywordCharacter := by
    rw [List.takeWhile_append, if_neg (by omega)]
  refine ⟨⟨by rw [ht]; exact h.1, ?_⟩, ht⟩
  rw [ht, List.drop_append_of_le_length (by omega), List.head?_append, h.2]
  rfl

theorem afterColon_append {t u : Text} (h : (afterColon (t ++ u)).source.length ≤ t.length + 1) :
    afterColon t = afterColon (t ++ u) := by
  by_cases hk : OpensKeyword (t ++ u)
  · rw [afterColon_keyword hk] at h ⊢
    simp only [source, List.length_append, List.length_cons, List.length_nil] at h
    have ht := stable_takeWhile isKeywordCharacter t u (by omega)
    have hk' : OpensKeyword t := by
      refine ⟨ht ▸ hk.1, ?_⟩
      have hd := hk.2
      rw [← ht, List.drop_append_of_le_length (by rw [ht]; omega), List.head?_append_of_ne_nil] at hd
      · exact hd
      · intro hn
        have := List.drop_eq_nil_iff.1 hn
        rw [ht] at this
        omega
    rw [afterColon_keyword hk', ht]
  · have hk' : ¬ OpensKeyword t := fun hk' => hk (hk'.append u).1
    rw [afterColon_operator hk, afterColon_operator hk'] at *
    cases t with
    | cons c t => rfl
    | nil =>
      split at h
      · simp [source] at h
      next hu => rw [if_neg hu]; rfl

theorem symbol_append {c : Char} {t u : Text}
    (h : (symbol c (t ++ u)).source.length ≤ t.length + 1) : symbol c t = symbol c (t ++ u) := by
  cases t with
  | cons d t =>
    simp only [symbol, List.cons_append]
    split <;> split <;> simp_all
  | nil =>
    simp only [List.nil_append, List.length_nil] at h ⊢
    unfold symbol at h ⊢
    split at h <;> simp_all [source]

/-- Where the first character of a piece is a digit, or a point before one. -/
def startsNumeral (c : Char) (rest : Text) : Bool :=
  c.isDigit || (c == '.' && rest.head?.any Char.isDigit)

theorem startsNumeral_append {c : Char} {t u : Text}
    (h : startsNumeral c (t ++ u) = true → (numeral c (t ++ u)).length ≤ t.length + 1) :
    startsNumeral c t = startsNumeral c (t ++ u) := by
  cases t with
  | cons d t => rfl
  | nil =>
    cases u with
    | nil => rfl
    | cons d u =>
      by_cases hd : d.isDigit = true
      · by_contra hn
        have hs : startsNumeral c (d :: u) = true := by
          simp only [startsNumeral, List.nil_append] at hn ⊢
          revert hn
          cases c.isDigit <;> cases hc : c == '.' <;> simp [hd]
        have hl := h hs
        simp [numeral, hd] at hl
      · simp [startsNumeral, hd]

/-- The piece of a name whose first character is `c` and of which `f` takes the rest. -/
def word (c : Char) (f : Text → Text) (rest : Text) : Piece :=
  named (c :: f rest) (rest.drop (f rest).length)

theorem word_append {c : Char} {f : Text → Text} (hf : Stable f) {t u : Text}
    (h : (word c f (t ++ u)).source.length ≤ t.length + 1) : word c f t = word c f (t ++ u) := by
  unfold word at h ⊢
  obtain ⟨more, hm, -⟩ := named_source (c :: f (t ++ u)) ((t ++ u).drop (f (t ++ u)).length)
  simp only [hm, List.length_append, List.length_cons] at h
  have hl : (f (t ++ u)).length ≤ t.length := by omega
  rw [List.drop_append_of_le_length hl] at hm ⊢
  rw [hf t u hl]
  refine named_append ?_
  rw [hm, List.length_append, List.length_cons, List.length_drop]
  omega

theorem first_quote (rest : Text) : first '"' rest = word '"' (throughClosing '"' false) rest := rfl

/-- What starts with none of the characters that stand for themselves. -/
def firstPlain (c : Char) (rest : Text) : Piece :=
  if isBlank c then gap (c :: rest.takeWhile isBlank)
  else if startsNumeral c rest then lexeme (numeral c rest) (.num (numeral c rest))
  else if isNameStart c then word c nameTail rest
  else symbol c rest

theorem firstPlain_append {c : Char} {t u : Text}
    (h : (firstPlain c (t ++ u)).source.length ≤ t.length + 1) :
    firstPlain c t = firstPlain c (t ++ u) := by
  unfold firstPlain at h ⊢
  by_cases hb : isBlank c = true
  · rw [if_pos hb] at h
    rw [if_pos hb, if_pos hb, stable_takeWhile _ t u (by simpa [source] using h)]
  rw [if_neg hb] at h
  have hs : startsNumeral c t = startsNumeral c (t ++ u) :=
    startsNumeral_append fun hs => by simpa [hs, source] using h
  rw [if_neg hb, if_neg hb, hs]
  by_cases hn : startsNumeral c (t ++ u) = true
  · rw [if_pos hn] at h
    have hl : (numeral c (t ++ u)).length ≤ t.length + 1 := h
    rw [if_pos hn, if_pos hn]
    rw [numeral_eq] at hl ⊢
    rw [numeral_eq, stable_numeral c t u (by simpa using hl)]
  rw [if_neg hn] at h ⊢
  rw [if_neg hn]
  by_cases hc : isNameStart c = true
  · rw [if_pos hc] at h
    rw [if_pos hc, if_pos hc, word_append stable_nameTail h]
  · rw [if_neg hc] at h
    rw [if_neg hc, if_neg hc, symbol_append h]

/-- The characters that decide on their own what piece they start. -/
def decisive : List Char := ['{', '(', ')', '[', ']', ',', '"', '\'', ':']

theorem first_plain {c : Char} (hc : c ∉ decisive) (rest : Text) :
    first c rest = firstPlain c rest := by
  unfold first
  split <;> first | rfl | exact absurd (by decide) hc

/-- A piece is the same in every text that starts with its source. -/
theorem first_append {c : Char} {t u : Text} (h : (first c (t ++ u)).source.length ≤ t.length + 1) :
    first c t = first c (t ++ u) := by
  by_cases hc : c ∈ decisive
  · simp only [decisive, List.mem_cons, List.not_mem_nil, or_false] at hc
    rcases hc with rfl | rfl | rfl | rfl | rfl | rfl | rfl | rfl | rfl
    case inl =>
      have hl : (throughClosing '}' false (t ++ u)).length ≤ t.length := Nat.le_of_succ_le_succ h
      simp only [first, stable_throughClosing '}' false t u hl]
    case inr.inr.inr.inr.inr.inr.inl =>
      exact word_append (stable_throughClosing '"' false) h
    case inr.inr.inr.inr.inr.inr.inr.inl =>
      have hl : (throughClosing '\'' false (t ++ u)).length ≤ t.length := Nat.le_of_succ_le_succ h
      simp only [first, singleQuoted, stable_throughClosing '\'' false t u hl]
    case inr.inr.inr.inr.inr.inr.inr.inr => exact afterColon_append h
    all_goals rfl
  · rw [first_plain hc] at h ⊢
    rw [first_plain hc, firstPlain_append h]

/-- The source of a piece is a stretch at the start of the text. -/
theorem first_source (c : Char) (rest : Text) :
    ∃ s, (first c rest).source = c :: s ∧ s <+: rest := by
  have hword (f : Text → Text) (hf : f rest <+: rest) :
      ∃ s, (word c f rest).source = c :: s ∧ s <+: rest := by
    obtain ⟨more, hm, hp⟩ := named_source (c :: f rest) (rest.drop (f rest).length)
    refine ⟨f rest ++ more, hm, ?_⟩
    have := (List.prefix_append_right_inj (f rest)).2 hp
    rwa [List.prefix_iff_eq_append.1 hf] at this
  by_cases hc : c ∈ decisive
  · simp only [decisive, List.mem_cons, List.not_mem_nil, or_false] at hc
    rcases hc with rfl | rfl | rfl | rfl | rfl | rfl | rfl | rfl | rfl
    case inl => exact ⟨_, rfl, prefix_throughClosing _ _ _⟩
    case inr.inr.inr.inr.inr.inr.inl => exact hword _ (prefix_throughClosing _ _ _)
    case inr.inr.inr.inr.inr.inr.inr.inl => exact ⟨_, rfl, prefix_throughClosing _ _ _⟩
    case inr.inr.inr.inr.inr.inr.inr.inr =>
      by_cases hk : OpensKeyword rest
      · refine ⟨rest.takeWhile isKeywordCharacter ++ [':'], by
          rw [first, afterColon_keyword hk]; rfl, ?_⟩
        obtain ⟨more, hm⟩ := List.head?_eq_some_iff.1 hk.2
        refine ⟨more, ?_⟩
        have := List.prefix_iff_eq_append.1 (List.takeWhile_prefix (l := rest) isKeywordCharacter)
        rw [hm] at this
        simpa using this
      · rw [first, afterColon_operator hk]
        split
        next he =>
          obtain ⟨more, rfl⟩ := List.head?_eq_some_iff.1 he
          exact ⟨['='], rfl, more, rfl⟩
        next => exact ⟨[], rfl, List.nil_prefix⟩
    all_goals exact ⟨[], rfl, List.nil_prefix⟩
  · rw [first_plain hc]
    unfold firstPlain
    split
    · exact ⟨_, rfl, List.takeWhile_prefix _⟩
    · split
      · rw [numeral_eq]
        exact ⟨_, rfl, prefix_numeral c rest⟩
      · split
        · exact hword _ (prefix_nameTail rest)
        · unfold symbol
          split
          case h_4 => exact ⟨[], rfl, List.nil_prefix⟩
          all_goals exact ⟨[_], rfl, _, rfl⟩

/-! ### All pieces -/

@[simp] theorem scan_nil : scan [] = [] := by rw [scan]

theorem scan_cons {c : Char} {s more : Text} (h : (first c (s ++ more)).source = c :: s) :
    scan (c :: (s ++ more)) = first c (s ++ more) :: scan more := by
  rw [scan, h]
  simp

/-- A text is empty, or it starts with the source of its first piece. -/
theorem scan_cases (t : Text) :
    (t = [] ∧ scan t = []) ∨ ∃ c s more, t = c :: (s ++ more) ∧
      (first c (s ++ more)).source = c :: s ∧ scan t = first c (s ++ more) :: scan more := by
  cases t with
  | nil => exact .inl ⟨rfl, scan_nil⟩
  | cons c rest =>
    obtain ⟨s, hs, more, rfl⟩ := first_source c rest
    exact .inr ⟨c, s, more, rfl, hs, scan_cons hs⟩

/-- What is shown of a text after its first piece is shown of every text. -/
theorem scan_induction {P : Text → Prop} (nil : P [])
    (cons : ∀ {c s more}, (first c (s ++ more)).source = c :: s →
      scan (c :: (s ++ more)) = first c (s ++ more) :: scan more → P more → P (c :: (s ++ more)))
    (t : Text) : P t := by
  rcases scan_cases t with ⟨rfl, -⟩ | ⟨c, s, more, heq, hs, ht⟩
  · exact nil
  · have hlt : more.length < t.length := by
      rw [heq, List.length_cons, List.length_append]
      omega
    rw [heq] at ht ⊢
    exact cons hs ht (scan_induction nil cons more)
termination_by t.length

/-- The first `n` pieces of a text. The recursion is on `n`, so that these can be evaluated. -/
def scanUpTo : Nat → Text → List Piece
  | 0, _ => []
  | _ + 1, [] => []
  | n + 1, c :: rest =>
    let piece := first c rest
    piece :: scanUpTo n (rest.drop (piece.source.length - 1))

theorem scanUpTo_eq_take (n : Nat) (t : Text) : scanUpTo n t = (scan t).take n := by
  induction n generalizing t with
  | zero => rfl
  | succ n ih =>
    cases t with
    | nil => rw [scan_nil]; rfl
    | cons c rest => rw [scanUpTo, ih, scan, List.take_succ_cons]

theorem length_scan_le (t : Text) : (scan t).length ≤ t.length := by
  induction t using scan_induction with
  | nil => simp
  | cons _ hscan ih =>
    rw [hscan, List.length_cons, List.length_cons, List.length_append]
    omega

/-- All pieces of a text, in a form that can be evaluated. -/
theorem scan_eq_scanUpTo (t : Text) : scan t = scanUpTo t.length t := by
  rw [scanUpTo_eq_take, List.take_of_length_le (length_scan_le t)]

/-- No character is dropped. -/
theorem scan_source (t : Text) : (scan t).flatMap source = t := by
  induction t using scan_induction with
  | nil => rw [scan_nil, List.flatMap_nil]
  | cons hs ht ih => rw [ht, List.flatMap_cons, hs, ih, List.cons_append]

/-- The pieces after some pieces of a text are those of what these leave. -/
theorem scan_suffix {t : Text} {ps qs : List Piece} (h : scan t = ps ++ qs) :
    scan (qs.flatMap source) = qs := by
  induction ps generalizing t with
  | nil => rw [← List.nil_append qs, ← h, scan_source]
  | cons p ps ih =>
    rcases scan_cases t with ⟨rfl, ht⟩ | ⟨c, s, more, rfl, hs, ht⟩
    · simp [h] at ht
    · rw [h, List.cons_append] at ht
      exact ih (List.cons.inj ht).2.symm

/-- Each piece is the first one of what is left where it stands. -/
theorem exists_first {t : Text} {ps qs : List Piece} {p : Piece} (h : scan t = ps ++ p :: qs) :
    ∃ c s more, p = first c (s ++ more) ∧ (first c (s ++ more)).source = c :: s ∧
      qs = scan more := by
  have hp := scan_suffix h
  rcases scan_cases ((p :: qs).flatMap source) with ⟨-, ht⟩ | ⟨c, s, more, -, hs, ht⟩
  · exact absurd (hp.symm.trans ht) (List.cons_ne_nil p qs)
  · obtain ⟨rfl, rfl⟩ := List.cons.inj (hp.symm.trans ht)
    exact ⟨c, s, more, rfl, hs, rfl⟩

/-- A text that is cut between two pieces keeps those before the cut. -/
theorem scan_of_append {t : Text} {ps qs : List Piece} (h : scan t = ps ++ qs) :
    scan (ps.flatMap source) = ps := by
  induction ps generalizing t with
  | nil => exact scan_nil
  | cons p ps ih =>
    rcases scan_cases t with ⟨rfl, ht⟩ | ⟨c, s, more, rfl, hs, ht⟩
    · simp [h] at ht
    · rw [h, List.cons_append] at ht
      obtain ⟨hp, hps⟩ := List.cons.inj ht
      have hmore : more = ps.flatMap source ++ qs.flatMap source := by
        rw [← List.flatMap_append, hps, scan_source]
      have hf : first c (s ++ ps.flatMap source) = first c (s ++ more) := by
        rw [hmore, ← List.append_assoc]
        refine first_append ?_
        rw [List.append_assoc, ← hmore, hs]
        simp
      rw [List.flatMap_cons, hp, hs, List.cons_append, scan_cons (by rw [hf, hs]), hf,
        ih hps.symm]

/-- A stretch of neighbouring pieces is what the text of the stretch has. -/
theorem scan_stretch {t : Text} {ps qs rs : List Piece} (h : scan t = ps ++ qs ++ rs) :
    scan (qs.flatMap source) = qs := by
  rw [List.append_assoc] at h
  have hq := scan_suffix h
  exact scan_of_append hq

end StockFlow.Piece
