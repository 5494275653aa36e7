import StockFlow.Proofs.Placeholder

/-! Equations that begin with a call. The shape of a call looks at characters, the tokens at names,
and a call that the arguments are taken of is found among the tokens. Both see the same calls where
the name of the function is a bare name, no comment stands before the parenthesis, no underscore at
an edge of the name, no blank but spaces and tabs inside it, and where its letters agree in case.
Each of these is needed: a comment or an underscore at an edge hides a call from the shape, and other
blanks look like those of a name to the shape only. -/
namespace StockFlow

open Unicode (isBlank upperCase sameFold)
open Piece (isNameStart isNameContinue isSpacing nameTail)
open Text (IsTrimmed)

/-! ### Before the first parenthesis -/

namespace Text

def beforeParen (t : Text) : Text := t.takeWhile (· != '(')

variable {s t : Text}

theorem beforeParen_append (h : '(' ∉ s) (t : Text) :
    beforeParen (s ++ t) = s ++ beforeParen t := by
  refine List.takeWhile_append_of_pos fun c hc => ?_
  rw [bne_iff_ne]
  exact fun heq => h (heq ▸ hc)

theorem beforeParen_paren (h : '(' ∉ s) (t : Text) : beforeParen (s ++ '(' :: t) = s := by
  rw [beforeParen_append h, beforeParen, List.takeWhile_cons_of_neg (by decide), List.append_nil]

theorem exists_beforeParen (h : '(' ∈ t) : ∃ rest, t = beforeParen t ++ '(' :: rest := by
  obtain ⟨s, rest, rfl, hs⟩ := List.eq_append_cons_of_mem h
  exact ⟨rest, by rw [beforeParen_paren hs]⟩

theorem not_mem_of_blank {c : Char} (h : ∀ x ∈ t, isBlank x = true) (hc : isBlank c = false) :
    c ∉ t := by
  intro hm
  simp [h c hm] at hc

end Text

/-! ### The first tokens -/

namespace Piece

theorem blank_of_gap {c : Char} {rest s : Text} (h : first c rest = gap s) :
    c = '\x7b' ∨ ∀ x ∈ s, isBlank x = true := by
  have hf := isFirst c rest
  rw [h] at hf
  generalize hp : gap s = p at hf
  cases hf with
  | comment hc => exact .inl hc
  | blanks hb => exact .inr (gap.inj hp ▸ hb)
  | quoted | bare => exact absurd hp.symm (word_ne_gap _ _ _ _)
  | paren | literal | other => simp [singleQuoted] at hp

theorem paren_of_first {c : Char} {rest s : Text} (h : first c rest = lexeme s .lparen) :
    c = '(' ∧ s = ['('] := by
  have hf := isFirst c rest
  rw [h] at hf
  generalize hp : lexeme s .lparen = p at hf
  cases hf with
  | comment | blanks | literal => simp [singleQuoted] at hp
  | quoted | bare => rcases word_eq_lexeme hp.symm with ⟨htoken, -⟩ | ⟨_, htoken⟩ <;> simp at htoken
  | paren hc => exact ⟨hc, (lexeme.inj hp).1⟩
  | other _ hn => exact absurd (lexeme.inj hp).2.symm hn

theorem not_mem_bare {c x : Char} {rest : Text} (hc : isNameStart c = true)
    (hs : isNameStart x = false) (hn : isNameContinue x = false) (hb : isSpacing x = false) :
    x ∉ c :: nameTail rest := by
  intro hx
  rcases List.mem_cons.1 hx with rfl | hx
  · simp [hc] at hs
  · simpa [hn, hb] using all_of_nameTail (nameTail_nameTail rest) x hx

end Piece

namespace Token

theorem ofEquation_cons {c : Char} {s more : Text}
    (h : (Piece.first c (s ++ more)).source = c :: s) : ofEquation (c :: (s ++ more)) =
      (Piece.first c (s ++ more)).token?.toList ++ ofEquation more := by
  rw [ofEquation, Piece.scan_cons h, List.filterMap_cons]
  cases (Piece.first c (s ++ more)).token? <;> rfl

/-- Where no comment stands before the first parenthesis, the first token follows blanks only. -/
theorem exists_leading {t : Text} {token : Token} {more : List Token}
    (h : ofEquation t = token :: more) (hcomment : '\x7b' ∉ t.beforeParen) :
    ∃ before c s rest, t = before ++ (c :: s ++ rest) ∧ (∀ x ∈ before, isBlank x = true) ∧
      Piece.first c (s ++ rest) = .lexeme (c :: s) token ∧ ofEquation rest = more := by
  induction t using Piece.scan_induction with
  | nil => simp [ofEquation] at h
  | @cons c s rest hsource _ ih =>
    rw [ofEquation_cons hsource] at h
    cases hfirst : Piece.first c (s ++ rest) with
    | lexeme source found =>
      rw [hfirst] at h hsource
      obtain ⟨rfl, rfl⟩ := List.cons.inj h
      obtain rfl : source = c :: s := hsource
      exact ⟨[], c, s, rest, rfl, by simp, hfirst, rfl⟩
    | gap source =>
      rw [hfirst] at h hsource
      obtain rfl : source = c :: s := hsource
      rcases Piece.blank_of_gap hfirst with rfl | hb
      · exact absurd (by simp [Text.beforeParen]) hcomment
      · have hparen : '(' ∉ c :: s := Text.not_mem_of_blank hb (by decide)
        rw [← List.cons_append, Text.beforeParen_append hparen] at hcomment
        obtain ⟨before, c', s', rest', rfl, hbefore, hlexeme, hmore⟩ :=
          ih h fun hm => hcomment (List.mem_append_right _ hm)
        refine ⟨c :: s ++ before, c', s', rest', by simp, fun x hx => ?_, hlexeme, hmore⟩
        exact (List.mem_append.1 hx).elim (hb x) (hbefore x)

/-- Blanks before the first token are no tokens. -/
theorem ofEquation_blanks {before t : Text} (hb : ∀ c ∈ before, isBlank c = true)
    (ht : ∀ c ∈ t.head?, isBlank c = false) : ofEquation (before ++ t) = ofEquation t := by
  cases before with
  | nil => rfl
  | cons c s =>
    obtain ⟨hc, hs⟩ := List.forall_mem_cons.1 hb
    have htail : t.takeWhile isBlank = [] := by
      cases t with
      | nil => rfl
      | cons d t => simp [ht d rfl]
    have hfirst : Piece.first c (s ++ t) = .gap (c :: s) := by
      rw [Piece.first_plain (Piece.not_mem_decisive_of_isBlank hc), Piece.firstPlain, if_pos hc,
        List.takeWhile_append_of_pos hs, htail, List.append_nil]
    rw [List.cons_append, ofEquation_cons (by rw [hfirst]; rfl), hfirst]
    rfl

/-- A bare name before blanks and a parenthesis is a token by itself. -/
theorem ofEquation_bare {c : Char} {n after : Text} (hc : isNameStart c = true)
    (hn : nameTail n = n) (ha : ∀ x ∈ after, isBlank x = true) (rest : Text) :
    ofEquation (c :: n ++ (after ++ '(' :: rest)) =
      .ident (c :: n) :: ofEquation (after ++ '(' :: rest) := by
  have htail : nameTail (n ++ (after ++ '(' :: rest)) = n := by
    refine Piece.nameTail_append hn fun x hx => ?_
    have hp := List.mem_takeWhile_imp hx
    have hxa : x ∈ after := by
      by_contra hxa
      have hstop : (after ++ '(' :: rest).takeWhile (fun c => isNameContinue c || isSpacing c) <+:
          after := by
        have hnone : ('(' :: rest).takeWhile (fun c => isNameContinue c || isSpacing c) = [] :=
          List.takeWhile_cons_of_neg (by decide)
        rw [List.takeWhile_append, hnone]
        split
        · simp
        · exact List.takeWhile_prefix _
      exact hxa (hstop.subset hx)
    simpa [Piece.not_isNameContinue_of_isBlank (ha x hxa)] using hp
  have hnamed : Piece.named (c :: n) (after ++ '(' :: rest) =
      .lexeme (c :: n) (.ident (c :: n)) := by
    refine Piece.named_ident fun inside hinside => ?_
    rw [List.dropWhile_append] at hinside
    split at hinside
    · simp [List.dropWhile_cons_of_neg (show ¬ isSpacing '(' = true by decide)] at hinside
    next hne =>
      have hmem : '[' ∈ after := by
        refine (List.dropWhile_sublist isSpacing).subset (List.mem_of_mem_head? ?_)
        rw [← List.head?_append_of_ne_nil _ (by simpa using hne), hinside]
        rfl
      exact absurd (ha '[' hmem) (by decide)
  have hfirst : Piece.first c (n ++ (after ++ '(' :: rest)) = .lexeme (c :: n) (.ident (c :: n)) := by
    rw [Piece.first_word hc, Piece.word, htail, List.drop_left, hnamed]
  rw [List.cons_append, ofEquation_cons (by rw [hfirst]; rfl), hfirst]
  rfl

end Token

namespace Call

/-- The equation begins with a call of the function: its first token is the name in some spelling,
and the next one is a parenthesis. -/
def Leads (function equation : Text) : Prop :=
  ∃ name rest, Token.ofEquation equation = .ident name :: .lparen :: rest ∧
    canonicalName name = function

/-- The arguments of a call that the equation begins with are taken of this call. -/
theorem find?_of_leads {function equation : Text} (h : Leads function equation) :
    ∃ token inside, (Token.located equation).head? = some token ∧
      find? function 0 (Piece.scan equation) = some (token.start, inside) := by
  obtain ⟨name, rest, htokens, hname⟩ := h
  unfold Token.ofEquation at htokens
  unfold Token.located
  generalize Piece.scan equation = ps at htokens
  generalize 0 = offset
  induction ps generalizing offset with
  | nil => simp at htokens
  | cons p ps ih =>
    cases p with
    | gap s =>
      obtain ⟨token, inside, htoken, hfind⟩ := ih htokens (offset + s.byteSize)
      exact ⟨token, inside, htoken, hfind⟩
    | lexeme s token =>
      obtain ⟨rfl, htail⟩ := List.cons.inj htokens
      obtain ⟨inside, hinside⟩ := afterParen?_of_tokens htail
      exact ⟨_, inside, rfl, by simp [find?, Piece.token?, hname, hinside]⟩

end Call

/-! ### Calls that both see -/

/-- The name of a function is a bare name, and the letters that stand before the first parenthesis of
an equation agree in case with it. -/
structure Comparable (function head : Text) : Prop where
  starts : ∀ c ∈ function.head?, isNameStart c = true
  continues : ∀ c ∈ function, isNameContinue c = true ∨ c = ' '
  agrees : ∀ c ∈ head, AgreesInCase function c

/-- As in names, spaces and tabs are the only blanks, and the first letter is no combining mark. -/
structure IsNameLike (t : Text) : Prop where
  spacing : ∀ c ∈ t, isBlank c = true → isSpacing c = true
  unmarked : t.head? ≠ some '\u0345'

theorem not_isNameSeparator {c : Char} (hb : isBlank c = false) (hu : c ≠ '_') :
    isNameSeparator c = false := by
  by_contra hs
  have hs : isNameSeparator c = true := by simpa using hs
  simp only [isNameSeparator, Bool.or_eq_true, beq_iff_eq] at hs
  rcases hs with (((rfl | rfl) | rfl) | rfl) | rfl
  case inl.inl.inl.inr => exact hu rfl
  all_goals exact absurd hb (by decide)

theorem upperCase_subset {started due : Bool} {t : Text} {c : Char} (hc : c ∈ t)
    (hs : isNameSeparator c = false) : upperCase c ⊆ canonicalFrom started due t := by
  induction t generalizing started due with
  | nil => simp at hc
  | cons x rest ih =>
    rcases List.mem_cons.1 hc with rfl | hc
    · rw [canonicalFrom_letter hs]
      exact fun d hd => List.mem_append_left _ (List.mem_append_right _ hd)
    · by_cases hx : isNameSeparator x = true
      · rw [canonicalFrom_separator hx]
        exact ih hc
      · rw [canonicalFrom_letter (by simpa using hx)]
        exact fun d hd => List.mem_append_right _ (ih hc hd)

section Agreement

variable {f : FunctionName} {t : Text} (h : Comparable f.text t.beforeParen)

/-- A call among the tokens has its name before the first parenthesis, if there is no comment. -/
theorem name_of_leads {function : Text} (hstarts : ∀ c ∈ function.head?, isNameStart c = true)
    (hleads : Call.Leads function t) (hcomment : '\x7b' ∉ t.beforeParen) :
    '(' ∈ t ∧ canonicalName t.beforeParen.trim = function ∧ IsNameLike t.beforeParen.trim := by
  obtain ⟨name, more, htokens, hname⟩ := hleads
  obtain ⟨before, c, s, rest, rfl, hb, hfirst, hmore⟩ := Token.exists_leading htokens hcomment
  obtain ⟨rfl, ⟨rfl, -⟩ | ⟨hc, hs⟩⟩ := Piece.ident_of_first hfirst
  · -- a quoted name keeps its quotes, and a function that has a bare name has none
    have hhead : function.head? = some '"' := by
      rw [← hname, canonicalName_eq, List.dropWhile_cons_of_neg (by decide)]
      simp [Unicode.upperCase_of_caseless (show Unicode.caseless.contains '"'.toNat = true by decide)]
    exact absurd (hstarts '"' hhead) (by decide)
  · have hparen : '(' ∉ before ++ c :: s := by
      rw [List.mem_append, not_or, hs]
      exact ⟨Text.not_mem_of_blank hb (by decide), Piece.not_mem_bare hc (by decide)
        (by decide) (by decide)⟩
    rw [← List.append_assoc, Text.beforeParen_append hparen] at hcomment
    obtain ⟨after, c', s', rest', rfl, ha, hfirst', -⟩ :=
      Token.exists_leading hmore fun hm => hcomment (List.mem_append_right _ hm)
    obtain ⟨rfl, hs'⟩ := Piece.paren_of_first hfirst'
    obtain rfl : s' = [] := (List.cons.inj hs').2
    have hall : '(' ∉ before ++ c :: s ++ after := by
      rw [List.mem_append, not_or]
      exact ⟨hparen, Text.not_mem_of_blank ha (by decide)⟩
    have htext : before ++ (c :: s ++ (after ++ (['('] ++ rest'))) =
        before ++ c :: s ++ after ++ '(' :: rest' := by simp
    have htrim : IsTrimmed (c :: s) := by
      rw [hs]
      exact (Piece.IsKey.isTrimmed (.name (.bare hc (Piece.nameTail_nameTail _)))).1
    rw [htext, Text.beforeParen_paren hall, htrim.trim_surrounded hb ha, hs]
    refine ⟨by simp, hs ▸ hname, fun x hx hblank => ?_, fun hmark => ?_⟩
    · rcases List.mem_cons.1 hx with rfl | hx
      · simp [Piece.not_isNameStart_of_isBlank hblank] at hc
      · simpa [Piece.not_isNameContinue_of_isBlank hblank] using
          Piece.all_of_nameTail (Piece.nameTail_nameTail _) x hx
    · obtain rfl : c = '\u0345' := by simpa using hmark
      exact absurd hc (by decide)

include h

theorem Comparable.letter {c : Char} (hname : canonicalName t.beforeParen.trim = f.text)
    (hc : c ∈ t.beforeParen.trim) (hs : isNameSeparator c = false) :
    ∃ u ∈ f.text, upperCase c = [u] ∧ u ≠ ' ' := by
  have hsub : upperCase c ⊆ f.text := hname ▸ upperCase_subset hc hs
  obtain ⟨u, hu, -⟩ := (h.agrees c ((Text.trim_sublist _).subset hc)).folds hsub
  have hmem : u ∈ f.text := hsub (by simp [hu])
  refine ⟨u, hmem, hu, ?_⟩
  rintro rfl
  rw [← Unicode.eq_of_mem_upperCase (c := c) (x := ' ') (by simp [hu]) (by decide)] at hs
  exact absurd hs (by decide)

/-- What spells the function before the first parenthesis is a bare name. -/
theorem Comparable.bare (hname : canonicalName t.beforeParen.trim = f.text)
    (hlike : IsNameLike t.beforeParen.trim) :
    ∃ c n, t.beforeParen.trim = c :: n ∧ isNameStart c = true ∧ nameTail n = n := by
  have htrim := Text.isTrimmed_trim t.beforeParen
  have hletter {c : Char} := h.letter (c := c) hname
  obtain ⟨hstarts, hcontinues, -⟩ := h
  obtain ⟨hspacing, hunmarked⟩ := hlike
  generalize t.beforeParen.trim = name at *
  obtain ⟨c, n, rfl⟩ : ∃ c n, name = c :: n := List.exists_cons_of_ne_nil fun hn => by
    rw [hn] at hname
    exact f.nonempty hname.symm
  refine ⟨c, n, rfl, ?_, ?_⟩
  · have hblank := htrim.head c rfl
    by_cases hu : c = '_'
    · rw [hu]
      decide
    · have hs := not_isNameSeparator hblank hu
      obtain ⟨u, -, hcase, -⟩ := hletter (.head _) hs
      have hhead : f.text.head? = some u := by
        rw [← hname, canonicalName_eq, List.dropWhile_cons_of_neg (by simp [hs])]
        simp [hcase]
      refine Piece.isNameStart_of_upperCase hcase (hstarts u hhead) ?_
      rintro rfl
      exact hunmarked rfl
  · have hall : ∀ x ∈ n, (isNameContinue x || isSpacing x) = true := by
      intro x hx
      have hx := List.mem_cons_of_mem c hx
      by_cases hblank : isBlank x = true
      · simp [hspacing x hx hblank]
      · by_cases hu : x = '_'
        · rw [hu]
          decide
        · obtain ⟨u, hu, hcase, hne⟩ := hletter hx (not_isNameSeparator (by simpa using hblank) hu)
          simp [Piece.isNameContinue_of_upperCase hcase ((hcontinues u hu).resolve_right hne)]
    have hn : n.takeWhile (fun c => isNameContinue c || isSpacing c) = n := by simpa using hall
    rw [nameTail, hn]
    refine Text.dropTrailing_eq_self fun x hx => ?_
    have hlast := htrim.last x (List.mem_getLast?_cons hx)
    by_contra hs
    simp only [isSpacing, Bool.not_eq_false, Bool.or_eq_true, beq_iff_eq] at hs
    rcases hs with rfl | rfl <;> exact absurd hlast (by decide)

theorem Comparable.leads (hparen : '(' ∈ t) (hname : canonicalName t.beforeParen.trim = f.text)
    (hlike : IsNameLike t.beforeParen.trim) :
    Call.Leads f.text t ∧ '\x7b' ∉ t.beforeParen := by
  obtain ⟨rest, ht⟩ := Text.exists_beforeParen hparen
  obtain ⟨before, after, hhead, hb, ha⟩ := Text.exists_trim t.beforeParen
  obtain ⟨c, n, hcn, hfirst, htail⟩ := h.bare hname hlike
  have hstart : isBlank c = false := (Text.isTrimmed_trim t.beforeParen).head c (by rw [hcn]; rfl)
  rw [hcn] at hname hhead
  have htext : t = before ++ (c :: n ++ (after ++ '(' :: rest)) := by
    rw [ht, hhead]
    simp
  refine ⟨⟨c :: n, Token.ofEquation rest, ?_, hname⟩, ?_⟩
  · rw [htext, Token.ofEquation_blanks hb (by simpa using hstart), Token.ofEquation_bare hfirst
      htail ha, Token.ofEquation_blanks ha (by simp; decide), Token.ofEquation, Piece.scan_lparen]
    rfl
  · rw [hhead, List.mem_append, List.mem_append, not_or, not_or]
    refine ⟨⟨Text.not_mem_of_blank hb (by decide), ?_⟩, Text.not_mem_of_blank ha (by decide)⟩
    rw [← htail]
    exact Piece.not_mem_bare hfirst (by decide) (by decide) (by decide)

/-- The letters of the function are neither blanks nor underscores, in any case. -/
theorem Comparable.edge {c : Char} (hc : ∃ d ∈ f.text, d ≠ ' ' ∧ sameFold d c = true) :
    isBlank c = false ∧ c ≠ '_' := by
  obtain ⟨d, hd, hne, hfold⟩ := hc
  constructor
  · by_contra hb
    have hb : isBlank c = true := by simpa using hb
    obtain rfl := Unicode.eq_of_sameFold hfold (Unicode.caseless_of_isBlank hb)
    simpa [hne, Piece.not_isNameContinue_of_isBlank hb] using h.continues d hd
  · rintro rfl
    obtain rfl := Unicode.eq_of_sameFold hfold (by decide)
    exact hne (f.eq_space_of_mem hd (by decide))

theorem Comparable.name_of_fits (hfits : CallPattern.Fits (.ofFunction f) t)
    (hspacing : ∀ c ∈ t.beforeParen.trim, isBlank c = true → isSpacing c = true) :
    ('(' ∈ t ∧ canonicalName t.beforeParen.trim = f.text) ∧
      t.beforeParen.trim.head? ≠ some '_' ∧ t.beforeParen.trim.getLast? ≠ some '_' := by
  obtain ⟨before, s, after, rest, rfl, hb, hs, ha⟩ := CallPattern.fits_ofFunction_iff.1 hfits
  have hparen : '(' ∉ before ++ s ++ after := by
    rw [List.mem_append, List.mem_append, not_or, not_or]
    refine ⟨⟨Text.not_mem_of_blank hb (by decide), fun hm => ?_⟩,
      Text.not_mem_of_blank ha (by decide)⟩
    rcases hs.mem '(' hm with hsep | ⟨d, hd, hfold⟩
    · exact absurd hsep (by decide)
    · obtain rfl := Unicode.eq_of_sameFold hfold (by decide)
      exact absurd (h.continues '(' hd) (by decide)
  have hhead {c : Char} (hc : c ∈ s.head?) : isBlank c = false ∧ c ≠ '_' := by
    refine h.edge (hs.head (fun hn => ?_) c hc)
    exact absurd (h.starts ' ' hn) (by decide)
  have hlast {c : Char} (hc : c ∈ s.getLast?) : isBlank c = false ∧ c ≠ '_' :=
    h.edge (hs.last f.isSpaced c hc)
  have htrim : IsTrimmed s := ⟨fun _ hc => (hhead hc).1, fun _ hc => (hlast hc).1⟩
  rw [Text.beforeParen_paren hparen] at h hspacing ⊢
  obtain ⟨-, -, hagrees⟩ := h
  rw [htrim.trim_surrounded hb ha] at hspacing ⊢
  have hcanonical : canonicalName s = f.text := by
    rw [canonicalName_eq_canonicalFrom fun c hc => not_isNameSeparator (htrim.head c hc) (hhead hc).2]
    exact hs.canonicalFrom_eq f.isSpaced (List.Subset.refl _) (fun _ => f.eq_space_of_mem)
      (fun c hc => hagrees c (by simp [hc])) hspacing
  exact ⟨⟨by simp, hcanonical⟩, fun hc => (hhead hc).2 rfl, fun hc => (hlast hc).2 rfl⟩

/-- The shape of a call asks for a spelling of the function before the first parenthesis. -/
theorem Comparable.fits_iff
    (hspacing : ∀ c ∈ t.beforeParen.trim, isBlank c = true → isSpacing c = true) :
    CallPattern.Fits (.ofFunction f) t ↔ ('(' ∈ t ∧ canonicalName t.beforeParen.trim = f.text) ∧
      t.beforeParen.trim.head? ≠ some '_' ∧ t.beforeParen.trim.getLast? ≠ some '_' := by
  refine ⟨fun hfits => h.name_of_fits hfits hspacing, ?_⟩
  rintro ⟨⟨hparen, hname⟩, hfirst, hlast⟩
  obtain ⟨rest, ht⟩ := Text.exists_beforeParen hparen
  obtain ⟨before, after, hhead, hb, ha⟩ := Text.exists_trim t.beforeParen
  have htrim := Text.isTrimmed_trim t.beforeParen
  rw [canonicalName_eq_canonicalFrom fun c hc =>
    not_isNameSeparator (htrim.head c hc) fun hu => hfirst (hu ▸ hc)] at hname
  have hends : ∀ c ∈ t.beforeParen.trim.getLast?, isNameSeparator c = false := fun c hc =>
    not_isNameSeparator (htrim.last c hc) fun hu => hlast (hu ▸ hc)
  have hagree : ∀ c ∈ t.beforeParen.trim, AgreesInCase f.text c := fun c hc =>
    h.agrees c ((Text.trim_sublist _).subset hc)
  have hspells := (spells_canonicalFrom hends hagree).1 (by simp [hname])
  rw [hname] at hspells
  refine CallPattern.fits_ofFunction_iff.2 ⟨before, _, after, rest, ?_, hb, hspells, ha⟩
  rw [← hhead]
  exact ht

end Agreement

/-- No comment stands before the parenthesis, and no underscore at an edge of the name. -/
structure IsPlainHead (head : Text) : Prop where
  comment : '\x7b' ∉ head
  first : head.trim.head? ≠ some '_'
  last : head.trim.getLast? ≠ some '_'

theorem Comparable.fits_iff_leads {f : FunctionName} {t : Text}
    (h : Comparable f.text t.beforeParen) :
    (CallPattern.ofFunction f).fits t = true ∧ IsNameLike t.beforeParen.trim ↔
      Call.Leads f.text t ∧ IsPlainHead t.beforeParen := by
  rw [CallPattern.fits_iff]
  constructor
  · rintro ⟨hfits, hlike⟩
    obtain ⟨⟨hparen, hname⟩, hfirst, hlast⟩ := (h.fits_iff hlike.spacing).1 hfits
    obtain ⟨hleads, hcomment⟩ := h.leads hparen hname hlike
    exact ⟨hleads, hcomment, hfirst, hlast⟩
  · rintro ⟨hleads, hcomment, hfirst, hlast⟩
    obtain ⟨hparen, hname, hlike⟩ := name_of_leads h.starts hleads hcomment
    exact ⟨(h.fits_iff hlike.spacing).2 ⟨⟨hparen, hname⟩, hfirst, hlast⟩, hlike⟩

/-- An equation is taken for a stock, or for a placeholder, and has no odd blanks or mark before its
first parenthesis, just when its first tokens are a call of that function and neither a comment nor
underscores around the name stand there, provided that the name of the function is a bare name and
letters agree in case with it. A call that the equation begins with is the one whose arguments are
taken. -/
theorem calls_iff_leads (d : Dialect) (t : Text) :
    (Comparable d.stock.text t.beforeParen →
      (d.callsStock t = true ∧ IsNameLike t.beforeParen.trim ↔
        Call.Leads d.stock.text t ∧ IsPlainHead t.beforeParen)) ∧
    (Comparable d.placeholder.text t.beforeParen →
      (d.callsPlaceholder t = true ∧ IsNameLike t.beforeParen.trim ↔
        Call.Leads d.placeholder.text t ∧ IsPlainHead t.beforeParen)) ∧
    ∀ function, Call.Leads function t → ∃ token inside,
      (Token.located t).head? = some token ∧
        Call.find? function 0 (Piece.scan t) = some (token.start, inside) :=
  ⟨fun h => h.fits_iff_leads, fun h => h.fits_iff_leads, fun _ => Call.find?_of_leads⟩

/-! ### The first 128 code points -/

theorem agreesInCase_ascii {name : Text} (hname : ∀ d ∈ name, d.toNat < 128 ∧ d.toUpper = d)
    {c : Char} (h : c.toNat < 128) : AgreesInCase name c := by
  have hall : ∀ n < 128, (Char.ofNat n).toUpper.toLower = (Char.ofNat n).toLower ∧
      (Char.ofNat n).toLower.toUpper = (Char.ofNat n).toUpper := by
    decide
  have hcase {x : Char} (hx : x.toNat < 128) :
      x.toUpper.toLower = x.toLower ∧ x.toLower.toUpper = x.toUpper := by
    simpa only [Char.ofNat_toNat] using hall x.toNat hx
  have hcases {d : Char} (hd : d ∈ name) : sameFold d c = true ↔ d = c.toUpper := by
    obtain ⟨hlt, hupper⟩ := hname d hd
    rw [sameFold, beq_iff_eq, Unicode.fold_ascii hlt, Unicode.fold_ascii h, Char.toNat_inj]
    constructor
    · intro heq
      rw [← hupper, ← (hcase hlt).2, heq, (hcase h).2]
    · rintro rfl
      exact (hcase h).1
  have hupper := Unicode.upperCase_ascii h
  refine ⟨fun d hd hfold => ?_, fun hsub => ⟨c.toUpper, hupper, ?_⟩⟩
  · rw [hupper, (hcases hd).1 hfold]
  · exact (hcases (hsub (by simp [hupper]))).2 rfl

/-- A function and a text of the first 128 code points can be compared if a computation says so. -/
theorem comparable_ascii {function head : Text}
    (hfunction : (function.head?.all isNameStart && function.all fun c =>
      (isNameContinue c || c == ' ') && decide (c.toNat < 128) && c.toUpper == c) = true)
    (hhead : (head.all fun c => decide (c.toNat < 128)) = true) : Comparable function head := by
  simp only [Bool.and_eq_true, List.all_eq_true, Bool.or_eq_true, beq_iff_eq, decide_eq_true_eq,
    Option.all_eq_true] at hfunction hhead
  obtain ⟨hstarts, hletters⟩ := hfunction
  exact ⟨hstarts, fun c hc => (hletters c hc).1.1, fun c hc =>
    agreesInCase_ascii (fun d hd => ⟨(hletters d hd).1.2, (hletters d hd).2⟩) (hhead c hc)⟩

/-- A stock and a placeholder, spelled with blanks and underscores in the name. -/
def spelledCalls : Text × Text := ("\n integ\t(a, b)".toList, "a _Function\tof (x, y)".toList)

theorem spelledCalls_lead : Call.Leads Dialect.standard.stock.text spelledCalls.1 ∧
    Dialect.standard.callsPlaceholder spelledCalls.2 = true ∧
    ∃ token inside, (Token.located spelledCalls.1).head? = some token ∧
      Call.find? Dialect.standard.stock.text 0 (Piece.scan spelledCalls.1) =
        some (token.start, inside) := by
  have hstock : Comparable Dialect.standard.stock.text spelledCalls.1.beforeParen :=
    comparable_ascii (by decide +kernel) (by decide +kernel)
  have hplaceholder :
      Comparable Dialect.standard.placeholder.text spelledCalls.2.beforeParen :=
    comparable_ascii (by decide +kernel) (by decide +kernel)
  obtain ⟨hiff, -, hfind⟩ := calls_iff_leads .standard spelledCalls.1
  obtain ⟨-, hiff', -⟩ := calls_iff_leads .standard spelledCalls.2
  have hspacing : (spelledCalls.1.beforeParen.trim.all fun c => !isBlank c || isSpacing c) = true := by
    decide
  have hlike : IsNameLike spelledCalls.1.beforeParen.trim :=
    ⟨fun c hc hb => by simpa [hb] using List.all_eq_true.1 hspacing c hc, by decide⟩
  have hleads := ((hiff hstock).1 ⟨by decide +kernel, hlike⟩).1
  refine ⟨hleads, ((hiff' hplaceholder).2 ⟨?_, ?_, ?_, ?_⟩).1, hfind _ hleads⟩
  · exact ⟨"a _Function\tof".toList, [.ident ['x'], .comma, .ident ['y'], .rparen],
      by decide +kernel, by decide +kernel⟩
  all_goals decide

/-- A comment hides a call, and a blank that names do not have makes one. -/
theorem not_all_calls_lead :
    (Dialect.standard.callsStock "INTEG \x7bc\x7d (a, b)".toList = false ∧
      Call.Leads Dialect.standard.stock.text "INTEG \x7bc\x7d (a, b)".toList) ∧
    (Dialect.standard.callsPlaceholder "A\u00a0FUNCTION OF(a)".toList = true ∧
      ¬ Call.Leads Dialect.standard.placeholder.text "A\u00a0FUNCTION OF(a)".toList) := by
  refine ⟨⟨by decide, "INTEG".toList, [.ident ['a'], .comma, .ident ['b'], .rparen],
    by decide +kernel, by decide +kernel⟩, by decide +kernel, ?_⟩
  rintro ⟨name, rest, htokens, -⟩
  have hfirst : Token.ofEquation "A\u00a0FUNCTION OF(a)".toList =
      [.ident ['A'], .ident "FUNCTION OF".toList, .lparen, .ident ['a'], .rparen] := by
    decide +kernel
  rw [hfirst] at htokens
  simp at htokens

end StockFlow
