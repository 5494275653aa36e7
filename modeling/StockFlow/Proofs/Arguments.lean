import StockFlow.Equation.Call
import StockFlow.Equation.Reference
import StockFlow.Proofs.Names

/-! The arguments of a call. Each is a run of the pieces of the equation with another piece after it,
and trimming takes whole pieces from its ends, so the names in an argument are the names that stand
there in the equation, and each of them is closed. -/
namespace StockFlow

open Text (IsTrimmed)

namespace Piece

open Unicode (isBlank)

/-! ### The edges of a piece -/

theorem last_of_closes {delimiter : Char} {escaped : Bool} {body : Text}
    (h : Closes delimiter escaped body) : body.getLast? = some delimiter := by
  induction body generalizing escaped with
  | nil =>
    have hn := h [delimiter]
    rcases throughClosing_cons delimiter escaped delimiter with ⟨-, hends⟩ | ⟨escaped', hgoes⟩
    · simp [hends] at hn
    · simp [hgoes] at hn
  | cons c rest ih =>
    rcases throughClosing_cons delimiter escaped c with ⟨rfl, hends⟩ | ⟨escaped', hgoes⟩
    · have hrest := h []
      rw [List.append_nil, hends] at hrest
      rw [← hrest]
      rfl
    · have hclosed : Closes delimiter escaped' rest := fun tail => by
        have htail := h tail
        rw [List.cons_append, hgoes] at htail
        exact (List.cons.inj htail).2
      rw [List.getLast?_cons, ih hclosed]
      rfl

theorem not_isBlank_of_mem_exponent {t : Text} : ∀ x ∈ exponent t, isBlank x = false := by
  intro x hx
  cases t with
  | nil => simp [exponent] at hx
  | cons e rest =>
    rw [exponent_cons] at hx
    split at hx
    next he =>
      split at hx
      · simp at hx
      · rcases List.mem_append.1 hx with hx | hx
        · rcases List.mem_cons.1 hx with rfl | hx
          · rcases he with rfl | rfl <;> decide
          · have hs := (List.mem_filter.1 hx).2
            simp only [Bool.or_eq_true, beq_iff_eq] at hs
            rcases hs with rfl | rfl <;> decide
        · exact not_isBlank_of_isDigit (List.mem_takeWhile_imp hx)
    next => simp at hx

theorem not_isBlank_of_mem_fraction {t : Text} : ∀ x ∈ fraction t, isBlank x = false := by
  intro x hx
  unfold fraction at hx
  split at hx
  · rcases List.mem_cons.1 hx with rfl | hx
    · decide
    · exact not_isBlank_of_isDigit (List.mem_takeWhile_imp hx)
  · simp at hx

theorem not_isBlank_of_mem_numeral {c : Char} {rest : Text} (hc : isBlank c = false) :
    ∀ x ∈ numeral c rest, isBlank x = false := by
  intro x hx
  rw [numeral_eq] at hx
  rcases List.mem_cons.1 hx with rfl | hx
  · exact hc
  · rcases List.mem_append.1 hx with hx | hx
    · exact not_isBlank_of_isDigit (List.mem_takeWhile_imp hx)
    · rcases List.mem_append.1 hx with hx | hx
      · unfold numeralPart at hx
        split at hx
        · simp at hx
        · exact not_isBlank_of_mem_fraction x hx
      · exact not_isBlank_of_mem_exponent x hx

theorem last_nameTail (rest : Text) : ∀ d ∈ (nameTail rest).getLast?, isBlank d = false := by
  intro d hd
  have hs : isSpacing d = false := Text.last_dropTrailing _ _ d hd
  have hm : d ∈ rest.takeWhile fun c => isNameContinue c || isSpacing c :=
    (List.rdropWhile_prefix isSpacing _).subset (List.mem_of_mem_getLast? hd)
  have hp := List.mem_takeWhile_imp hm
  simp only [hs, Bool.or_false] at hp
  exact not_isBlank_of_isNameContinue hp

/-- A name with its subscript ends as the name does, or with a bracket. -/
theorem last_named {name rest : Text} (h : ∀ d ∈ name.getLast?, isBlank d = false) :
    ∀ d ∈ (named name rest).source.getLast?, isBlank d = false := by
  intro d hd
  rcases named_cases name rest with ⟨subscript, after, -, -, hn⟩ | ⟨-, hn⟩
  · rw [hn] at hd
    have hd : d ∈ (name ++ rest.takeWhile isSpacing ++ '[' :: subscript ++ [']']).getLast? := hd
    rw [List.getLast?_concat] at hd
    obtain rfl : ']' = d := by simpa using hd
    decide
  · rw [hn] at hd
    exact h d hd

theorem last_cons {c : Char} {s : Text} (hc : isBlank c = false)
    (hs : ∀ d ∈ s.getLast?, isBlank d = false) :
    ∀ d ∈ (c :: s).getLast?, isBlank d = false := by
  intro d hd
  rw [List.getLast?_cons] at hd
  cases hl : s.getLast? with
  | none =>
    obtain rfl : c = d := by simpa [hl] using hd
    exact hc
  | some x =>
    obtain rfl : x = d := by simpa [hl] using hd
    exact hs x hl

/-- What is closed ends with its delimiter, which is no blank. -/
theorem last_throughClosing {delimiter c : Char} {rest more : Text} (hd : isBlank delimiter = false)
    (hc : isBlank c = false) (hr : rest = throughClosing delimiter false rest ++ more)
    (hmore : more ≠ []) :
    ∀ d ∈ (c :: throughClosing delimiter false rest).getLast?, isBlank d = false := by
  refine last_cons hc fun d hl => ?_
  rw [last_of_closes (closes_of_followed hr hmore)] at hl
  obtain rfl : delimiter = d := by simpa using hl
  exact hd

/-- A piece that another follows is made of blanks or does not end with one. -/
theorem last_first {c : Char} {s more : Text} (hc : isBlank c = false) (hmore : more ≠ [])
    (hs : (first c (s ++ more)).source = c :: s) : ∀ d ∈ (c :: s).getLast?, isBlank d = false := by
  generalize hr : s ++ more = rest at hs
  have hsymm := hr.symm
  by_cases hdec : c ∈ decisive
  · simp only [decisive, List.mem_cons, List.not_mem_nil, or_false] at hdec
    rcases hdec with rfl | rfl | rfl | rfl | rfl | rfl | rfl | rfl | rfl
    case inl =>
      obtain rfl : throughClosing '}' false rest = s := by simpa [first, source] using hs
      exact last_throughClosing (by decide) hc hsymm hmore
    case inr.inr.inr.inr.inr.inr.inl =>
      rw [first_quote, word] at hs
      rw [← hs]
      refine last_named ?_
      obtain ⟨tail, ht, -⟩ := named_source ('"' :: throughClosing '"' false rest)
        (rest.drop (throughClosing '"' false rest).length)
      rw [hs, List.cons_append, List.cons.injEq] at ht
      have hrest : rest = throughClosing '"' false rest ++ (tail ++ more) := by
        rw [← List.append_assoc, ← ht.2, hr]
      exact last_throughClosing (by decide) hc hrest (List.append_ne_nil_of_right_ne_nil _ hmore)
    case inr.inr.inr.inr.inr.inr.inr.inl =>
      obtain rfl : throughClosing '\'' false rest = s := by simpa [first, singleQuoted, source] using hs
      exact last_throughClosing (by decide) hc hsymm hmore
    case inr.inr.inr.inr.inr.inr.inr.inr =>
      rw [← hs]
      by_cases hk : OpensKeyword rest
      · rw [first, afterColon_keyword hk]
        refine last_cons hc fun d hl => ?_
        have hcolon : (rest.takeWhile isKeywordCharacter ++ [':']).getLast? = some d := hl
        rw [List.getLast?_concat] at hcolon
        obtain rfl := Option.some.inj hcolon
        exact hc
      · rw [first, afterColon_operator hk]
        split <;> simp [source] <;> decide
    all_goals
      obtain rfl : [] = s := by simpa [first, source] using hs
      simpa using hc
  · rw [first_plain hdec, firstPlain] at hs
    rw [← hs]
    split
    next hb => simp [hc] at hb
    next =>
      split
      · exact fun d hd => not_isBlank_of_mem_numeral hc d (List.mem_of_mem_getLast? hd)
      · split
        · exact last_named (last_cons hc (last_nameTail rest))
        · unfold symbol
          split
          case h_4 => simpa [source] using hc
          all_goals simp [source]; decide

/-- Blanks between tokens, or no blank at either edge. -/
inductive IsTidy : Piece → Prop where
  | blank {s : Text} : (∀ c ∈ s, isBlank c = true) → IsTidy (gap s)
  | trimmed {p : Piece} : p.source ≠ [] → IsTrimmed p.source → IsTidy p

theorem isTidy_first {c : Char} {s more : Text} (hmore : more ≠ [])
    (hs : (first c (s ++ more)).source = c :: s) : IsTidy (first c (s ++ more)) := by
  by_cases hc : isBlank c = true
  · rw [first_plain (not_mem_decisive_of_isBlank hc), firstPlain, if_pos hc]
    exact .blank (List.forall_mem_cons.2 ⟨hc, fun x => List.mem_takeWhile_imp⟩)
  · have hc : isBlank c = false := by simpa using hc
    refine .trimmed (by simp [hs]) ?_
    rw [hs]
    exact ⟨by simpa using hc, last_first hc hmore hs⟩

theorem isTidy_of_scan {t : Text} {ps qs : List Piece} {p : Piece} (h : scan t = ps ++ p :: qs)
    (hq : qs ≠ []) : IsTidy p := by
  obtain ⟨c, s, more, rfl, hs, rfl⟩ := exists_first h
  refine isTidy_first ?_ hs
  rintro rfl
  exact hq scan_nil

/-- The key of a piece that another follows. -/
theorem isKey_of_scan {t k : Text} {ps qs : List Piece} {p : Piece} (h : scan t = ps ++ p :: qs)
    (hk : p.token?.bind Token.key = some k) :
    IsKey k ∨ (qs = [] ∧ k = p.source ∧ IsUnclosed k) := by
  obtain ⟨c, s, more, rfl, hs, rfl⟩ := exists_first h
  rcases isKey_of_first hs hk with hkey | ⟨rfl, rfl, hu⟩
  · exact .inl hkey
  · exact .inr ⟨scan_nil, hs.symm, hu⟩

/-! ### Trimming a stretch of pieces -/

theorem trimStart_pieces {ps : List Piece} (h : ∀ p ∈ ps, IsTidy p) :
    ∃ before rest, ps = before ++ rest ∧
      Text.trimStart (ps.flatMap source) = rest.flatMap source ∧
      before.filterMap token? = [] := by
  induction ps with
  | nil => exact ⟨[], [], rfl, rfl, rfl⟩
  | cons p ps ih =>
    obtain ⟨hp, hps⟩ := List.forall_mem_cons.1 h
    rw [List.flatMap_cons]
    cases hp with
    | @blank s hb =>
      obtain ⟨before, rest, rfl, ht, hgaps⟩ := ih hps
      exact ⟨gap s :: before, rest, rfl, (Text.trimStart_append_of_blank hb).trans ht, hgaps⟩
    | trimmed hn ht =>
      refine ⟨[], p :: ps, rfl, Text.trimStart_eq_self fun c hc => ht.head c ?_, rfl⟩
      rwa [List.head?_append_of_ne_nil _ hn] at hc

theorem trimEnd_pieces {ps : List Piece} (h : ∀ p ∈ ps, IsTidy p) :
    ∃ rest after, ps = rest ++ after ∧ Text.trimEnd (ps.flatMap source) = rest.flatMap source ∧
      after.filterMap token? = [] := by
  induction ps using List.reverseRecOn with
  | nil => exact ⟨[], [], rfl, rfl, rfl⟩
  | append_singleton ps p ih =>
    have hps : ∀ q ∈ ps, IsTidy q := fun q hq => h q (List.mem_append_left _ hq)
    have hflat : (ps ++ [p]).flatMap source = ps.flatMap source ++ p.source := by simp
    rw [hflat]
    cases h p (by simp) with
    | @blank s hb =>
      obtain ⟨rest, after, rfl, ht, hgaps⟩ := ih hps
      refine ⟨rest, after ++ [gap s], by simp, (Text.trimEnd_append_of_blank hb).trans ht, ?_⟩
      rw [List.filterMap_append, hgaps]
      rfl
    | trimmed hn ht =>
      refine ⟨ps ++ [p], [], by simp, ?_, rfl⟩
      rw [hflat]
      refine Text.trimEnd_eq_self fun c hc => ht.last c ?_
      rwa [List.getLast?_append_of_ne_nil _ hn] at hc

/-- Trimming takes whole pieces from both ends, and no token. -/
theorem trim_pieces {ps : List Piece} (h : ∀ p ∈ ps, IsTidy p) :
    ∃ before rest after, ps = before ++ rest ++ after ∧
      Text.trim (ps.flatMap source) = rest.flatMap source ∧
      before.filterMap token? = [] ∧ after.filterMap token? = [] := by
  obtain ⟨before, middle, rfl, hstart, hbefore⟩ := trimStart_pieces h
  obtain ⟨rest, after, rfl, hend, hafter⟩ :=
    trimEnd_pieces fun p hp => h p (List.mem_append_right before hp)
  refine ⟨before, rest, after, by simp, ?_, hbefore, hafter⟩
  rw [Text.trim, hstart, hend]

end Piece

/-! ### Arguments as runs of pieces -/

namespace Token

/-- How many delimiters are open after a token, when `depth` are open before it: none if it ends what
the first of them stands in. -/
def enter (depth : Nat) : Token → Option Nat
  | lparen | lbracket => some (depth + 1)
  | rparen | rbracket => if depth = 0 then none else some (depth - 1)
  | _ => some depth

/-- A delimiter that closes a parenthesis or a bracket. -/
def Closes (token : Token) : Prop := token = rparen ∨ token = rbracket

theorem enter_eq_none {depth : Nat} {token : Token} (h : token.enter depth = none) :
    depth = 0 ∧ token.Closes := by
  cases token with
  | rparen | rbracket => simpa [enter, Closes] using h
  | _ => simp [enter] at h

/-- How many delimiters are open after a token of an argument. A comma outside of all delimiters
belongs to none. -/
def pass (depth : Nat) (token : Token) : Option Nat :=
  if token = comma ∧ depth = 0 then none else token.enter depth

/-- What the tokens open they close, and no comma stands outside of that. -/
def IsArgument (tokens : List Token) : Prop := tokens.foldlM pass 0 = some 0

theorem pass_eq_some {depth depth' : Nat} {token : Token} (h : token.pass depth = some depth') :
    ¬(token = comma ∧ depth = 0) ∧ token.enter depth = some depth' := by
  unfold pass at h
  split at h
  · simp at h
  next hinner => exact ⟨hinner, h⟩

end Token

namespace Call

open Piece

/-- A piece that ends an argument. -/
def EndsArgument (p : Piece) : Prop :=
  p.token? = some .comma ∨ p.token? = some .rparen ∨ p.token? = some .rbracket

theorem endsArgument_of_closes {s : Text} {token : Token} (h : token.Closes) :
    EndsArgument (.lexeme s token) :=
  .inr (h.imp (congrArg some) (congrArg some))

/-- Neighbouring pieces that a piece follows which ends an argument. -/
def IsRun (ps qs : List Piece) : Prop :=
  ∃ before p after, ps = before ++ qs ++ p :: after ∧ EndsArgument p

theorem IsRun.append {ps qs : List Piece} (h : IsRun ps qs) (before : List Piece) :
    IsRun (before ++ ps) qs := by
  obtain ⟨pre, p, post, rfl, hp⟩ := h
  exact ⟨before ++ pre, p, post, by simp, hp⟩

theorem split?_gap (depth : Nat) (s : Text) (ps : List Piece) : split? depth (.gap s :: ps) =
    (split? depth ps).map fun (argument, arguments) => (s ++ argument, arguments) := rfl

theorem split?_lexeme (depth : Nat) (s : Text) (token : Token) (ps : List Piece) :
    split? depth (.lexeme s token :: ps) =
      if token = .comma ∧ depth = 0 then
        (split? 0 ps).map fun (argument, arguments) => ([], argument :: arguments)
      else match token.enter depth with
        | some depth =>
          (split? depth ps).map fun (argument, arguments) => (s ++ argument, arguments)
        | none => some ([], []) := by
  cases token <;> cases depth <;> rfl

/-- What `split?` finds, as pieces: those of the argument that the pieces stand in, and those of each
argument that follows. -/
inductive Lists : Nat → List Piece → List Piece → List (List Piece) → Prop where
  | close {depth : Nat} {s : Text} {token : Token} {ps : List Piece}
      (closes : token.enter depth = none) : Lists depth (.lexeme s token :: ps) [] []
  | comma {s : Text} {ps first : List Piece} {others : List (List Piece)} :
      Lists 0 ps first others → Lists 0 (.lexeme s .comma :: ps) [] (first :: others)
  | gap {depth : Nat} {s : Text} {ps first : List Piece} {others : List (List Piece)} :
      Lists depth ps first others → Lists depth (.gap s :: ps) (.gap s :: first) others
  | token {depth depth' : Nat} {s : Text} {token : Token} {ps first : List Piece}
      {others : List (List Piece)} (inner : ¬(token = .comma ∧ depth = 0))
      (enters : token.enter depth = some depth') :
      Lists depth' ps first others →
      Lists depth (.lexeme s token :: ps) (.lexeme s token :: first) others

theorem lists_of_split? {depth : Nat} {ps : List Piece} {t : Text} {ts : List Text}
    (h : split? depth ps = some (t, ts)) : ∃ first others, Lists depth ps first others ∧
      t = first.flatMap source ∧ ts = others.map (List.flatMap source) := by
  induction ps generalizing depth t ts with
  | nil => simp [split?] at h
  | cons p ps ih =>
    cases p with
    | gap s =>
      rw [split?_gap] at h
      obtain ⟨⟨t', ts'⟩, hs, heq⟩ := Option.map_eq_some_iff.1 h
      obtain ⟨rfl, rfl⟩ := Prod.mk.inj heq
      obtain ⟨first, others, hlists, rfl, rfl⟩ := ih hs
      exact ⟨_, others, .gap hlists, rfl, rfl⟩
    | lexeme s token =>
      rw [split?_lexeme] at h
      split at h
      next hcomma =>
        obtain ⟨rfl, rfl⟩ := hcomma
        obtain ⟨⟨t', ts'⟩, hs, heq⟩ := Option.map_eq_some_iff.1 h
        obtain ⟨rfl, rfl⟩ := Prod.mk.inj heq
        obtain ⟨first, others, hlists, rfl, rfl⟩ := ih hs
        exact ⟨[], first :: others, .comma hlists, rfl, rfl⟩
      next hinner =>
        split at h
        next depth' hdepth =>
          obtain ⟨⟨t', ts'⟩, hs, heq⟩ := Option.map_eq_some_iff.1 h
          obtain ⟨rfl, rfl⟩ := Prod.mk.inj heq
          obtain ⟨first, others, hlists, rfl, rfl⟩ := ih hs
          exact ⟨_, others, .token hinner hdepth hlists, rfl, rfl⟩
        next hdepth =>
          obtain ⟨rfl, rfl⟩ := Prod.mk.inj (Option.some.inj h)
          exact ⟨[], [], .close hdepth, rfl, rfl⟩

/-- Groups of pieces in a row, with a comma between two of them. -/
inductive Separated : List Piece → List (List Piece) → Prop where
  | last (group : List Piece) : Separated group [group]
  | cons (group : List Piece) {s : Text} {ps : List Piece} {groups : List (List Piece)} :
      Separated ps groups → Separated (group ++ .lexeme s .comma :: ps) (group :: groups)

namespace Separated

variable {ps group : List Piece} {groups : List (List Piece)}

theorem exists_cons (h : Separated ps groups) : ∃ group others, groups = group :: others := by
  cases h with
  | last | cons => exact ⟨_, _, rfl⟩

theorem eq_of_singleton (h : Separated ps [group]) : ps = group := by
  cases h with
  | last => rfl
  | cons _ h => obtain ⟨_, _, hnil⟩ := h.exists_cons; simp at hnil

/-- A first piece goes to the first group. -/
theorem cons_piece (h : Separated ps (group :: groups)) (p : Piece) :
    Separated (p :: ps) ((p :: group) :: groups) := by
  cases h with
  | last => exact .last _
  | cons _ h => exact .cons (p :: group) h

theorem subset (h : Separated ps groups) : ∀ group ∈ groups, group ⊆ ps := by
  induction h with
  | last group => simp
  | @cons group s ps groups h ih =>
    refine List.forall_mem_cons.2 ⟨List.subset_append_left _ _, fun g hg => ?_⟩
    exact fun q hq => List.mem_append_right _ (.tail _ (ih g hg hq))

theorem isRun (h : Separated ps groups) {p : Piece} (hp : EndsArgument p) (after : List Piece) :
    ∀ group ∈ groups, IsRun (ps ++ p :: after) group := by
  induction h with
  | last group => exact List.forall_mem_singleton.2 ⟨[], p, after, rfl, hp⟩
  | @cons group s ps groups h ih =>
    refine List.forall_mem_cons.2 ⟨⟨[], .lexeme s .comma, ps ++ p :: after, by simp, .inl rfl⟩,
      fun g hg => ?_⟩
    have hrun := (ih g hg).append (group ++ [.lexeme s .comma])
    simpa using hrun

end Separated

/-- What is found is all that stands before the delimiter that ends the call. -/
theorem Lists.exists_body {depth : Nat} {ps first : List Piece} {others : List (List Piece)}
    (h : Lists depth ps first others) : ∃ body s close after,
      ps = body ++ .lexeme s close :: after ∧ close.Closes ∧ Separated body (first :: others) ∧
      (first.filterMap token?).foldlM Token.pass depth = some 0 ∧
      ∀ group ∈ others, Token.IsArgument (group.filterMap token?) := by
  induction h with
  | @close depth s token ps closes =>
    obtain ⟨rfl, hcloses⟩ := Token.enter_eq_none closes
    exact ⟨[], s, token, ps, rfl, hcloses, .last [], rfl, by simp⟩
  | @comma s ps first others h ih =>
    obtain ⟨body, s', close, after, rfl, hcloses, hbody, hfirst, hothers⟩ := ih
    exact ⟨.lexeme s .comma :: body, s', close, after, rfl, hcloses, .cons [] hbody, rfl,
      List.forall_mem_cons.2 ⟨hfirst, hothers⟩⟩
  | @gap depth s ps first others h ih =>
    obtain ⟨body, s', close, after, rfl, hcloses, hbody, hfirst, hothers⟩ := ih
    exact ⟨.gap s :: body, s', close, after, rfl, hcloses, hbody.cons_piece _, hfirst, hothers⟩
  | @token depth depth' s token ps first others inner enters h ih =>
    obtain ⟨body, s', close, after, rfl, hcloses, hbody, hfirst, hothers⟩ := ih
    refine ⟨.lexeme s token :: body, s', close, after, rfl, hcloses, hbody.cons_piece _, ?_, hothers⟩
    have hpass : token.pass depth = some depth' := by rw [Token.pass, if_neg inner, enters]
    change (token :: first.filterMap token?).foldlM Token.pass depth = some 0
    rw [List.foldlM_cons, hpass]
    exact hfirst

theorem afterParen?_suffix {ps qs : List Piece} (h : afterParen? ps = some qs) : qs <:+ ps := by
  fun_induction afterParen? ps with
  | case1 s ps ih => exact (ih h).trans (List.suffix_cons _ _)
  | case2 s ps =>
    obtain rfl := Option.some.inj h
    exact List.suffix_cons _ _
  | case3 => simp at h

theorem afterParen?_of_tokens {ps : List Piece} {rest : List Token}
    (h : ps.filterMap token? = .lparen :: rest) : ∃ inside, afterParen? ps = some inside := by
  induction ps with
  | nil => simp at h
  | cons p ps ih =>
    cases p with
    | gap s => exact ih h
    | lexeme s token =>
      obtain ⟨rfl, -⟩ := List.cons.inj h
      exact ⟨ps, rfl⟩

theorem find?_suffix {function : Text} {offset start : Nat} {ps inside : List Piece}
    (h : find? function offset ps = some (start, inside)) : inside <:+ ps := by
  induction ps generalizing offset with
  | nil => simp [find?] at h
  | cons p ps ih =>
    have hfurther {o : Nat} (ho : find? function o ps = some (start, inside)) : inside <:+ p :: ps :=
      (ih ho).trans (List.suffix_cons _ _)
    simp only [find?] at h
    split at h
    · split at h
      · split at h
        next hin =>
          obtain ⟨-, rfl⟩ := Prod.mk.inj (Option.some.inj h)
          exact (afterParen?_suffix hin).trans (List.suffix_cons _ _)
        · exact hfurther h
      · exact hfurther h
    · exact hfurther h

/-- A call with nothing but blanks in it has no arguments. -/
theorem trimmed_cases (t : Text) (ts : List Text) : trimmed (t, ts) = (t :: ts).map Text.trim ∨
    ts = [] ∧ Text.trim t = [] ∧ trimmed (t, ts) = [] := by
  cases ts with
  | nil =>
    by_cases ht : Text.trim t = []
    · exact .inr ⟨rfl, ht, if_pos ht⟩
    · exact .inl (if_neg ht)
  | cons u us => exact .inl rfl

/-- Each argument is a run of pieces, without the blanks around it. -/
theorem arguments_run {equation function : Text} {args : List Text}
    (h : arguments equation function = .ok args) :
    ∀ a ∈ args, ∃ qs, IsRun (scan equation) qs ∧ a = Text.trim (qs.flatMap source) := by
  intro a ha
  unfold arguments at h
  split at h
  · simp at h
  next start inside hf =>
    obtain ⟨before, hbefore⟩ := find?_suffix hf
    split at h
    · simp at h
    next parts hs =>
      obtain rfl := Except.ok.inj h
      obtain ⟨t, ts⟩ := parts
      obtain ⟨first, others, hlists, rfl, rfl⟩ := lists_of_split? hs
      rcases trimmed_cases (first.flatMap source) (others.map (List.flatMap source)) with
        htrimmed | ⟨-, -, htrimmed⟩
      · rw [htrimmed, ← List.map_cons, List.map_map] at ha
        obtain ⟨qs, hqs, rfl⟩ := List.mem_map.1 ha
        obtain ⟨body, s, close, after, rfl, hcloses, hbody, -⟩ := hlists.exists_body
        have hend : EndsArgument (.lexeme s close) := endsArgument_of_closes hcloses
        exact ⟨qs, hbefore ▸ (hbody.isRun hend after qs hqs).append before, rfl⟩
      · simp [htrimmed] at ha

end Call

/-! ### References -/

namespace Reference

theorem mem_ofTokens {d : Dialect} {tokens : List Token} {k : Text} (h : k ∈ ofTokens d tokens) :
    d.reserves k = false ∧ ∃ token ∈ tokens, token.key = some k := by
  fun_induction ofTokens d tokens with
  | case1 => simp at h
  | case2 token rest key hk hskip ih =>
    obtain ⟨hr, t, ht, hkey⟩ := ih h
    exact ⟨hr, t, .tail _ ht, hkey⟩
  | case3 token rest key hk hskip ih =>
    rcases List.mem_cons.1 h with rfl | h
    · exact ⟨by simp_all, token, .head _, hk⟩
    · obtain ⟨hr, t, ht, hkey⟩ := ih h
      exact ⟨hr, t, .tail _ ht, hkey⟩
  | case4 token rest hk ih =>
    obtain ⟨hr, t, ht, hkey⟩ := ih h
    exact ⟨hr, t, .tail _ ht, hkey⟩

theorem isCall_append {d : Dialect} {token : Token} {tokens more : List Token}
    (h : more.head? ≠ some .lparen) : isCall d token (tokens ++ more) = isCall d token tokens := by
  cases token with
  | ident name =>
    cases tokens with
    | nil =>
      cases more with
      | nil => rfl
      | cons next more =>
        cases next <;> first | rfl | exact absurd rfl h
    | cons next tokens => cases next <;> rfl
  | _ => rfl

theorem mem_ofTokens_append {d : Dialect} {tokens : List Token} {k : Text}
    (before : List Token) (h : k ∈ ofTokens d tokens) : k ∈ ofTokens d (before ++ tokens) := by
  induction before with
  | nil => exact h
  | cons token before ih =>
    rw [List.cons_append, ofTokens]
    split
    · split
      · exact ih
      · exact .tail _ ih
    · exact ih

/-- Tokens make no call of what stands before them, unless they begin with a parenthesis. -/
theorem ofTokens_append {d : Dialect} {tokens more : List Token} (h : more.head? ≠ some .lparen) :
    ofTokens d (tokens ++ more) = ofTokens d tokens ++ ofTokens d more := by
  induction tokens with
  | nil => rfl
  | cons token tokens ih =>
    rw [List.cons_append, ofTokens, ofTokens, isCall_append h, ih]
    split
    · split
      · rfl
      · rfl
    · rfl

end Reference

open Piece Call

theorem mem_references {d : Dialect} {t k : Text} (h : k ∈ references d t) :
    d.reserves k = false ∧ ∃ p ∈ scan t, p.token?.bind Token.key = some k := by
  obtain ⟨hr, token, ht, hk⟩ := Reference.mem_ofTokens (List.mem_eraseDups.1 h)
  obtain ⟨p, hp, htoken⟩ := List.mem_filterMap.1 ht
  exact ⟨hr, p, hp, by rw [htoken]; exact hk⟩

/-- An argument is scanned into the pieces that it is made of, but for those at its edges that hold
no token. -/
theorem exists_scan_trim {equation : Text} {qs : List Piece} (h : IsRun (scan equation) qs) :
    ∃ before after, qs = before ++ scan (Text.trim (qs.flatMap source)) ++ after ∧
      before.filterMap token? = [] ∧ after.filterMap token? = [] := by
  obtain ⟨pre, p, post, hscan, -⟩ := h
  have htidy : ∀ q ∈ qs, IsTidy q := by
    intro q hq
    obtain ⟨us, vs, rfl⟩ := List.append_of_mem hq
    have hq : scan equation = (pre ++ us) ++ q :: (vs ++ p :: post) := hscan.trans (by simp)
    exact isTidy_of_scan hq (List.append_ne_nil_of_right_ne_nil _ (List.cons_ne_nil _ _))
  obtain ⟨before, rest, after, rfl, htrim, hbefore, hafter⟩ := trim_pieces htidy
  have hstretch : scan equation = pre ++ before ++ rest ++ (after ++ p :: post) :=
    hscan.trans (by simp)
  refine ⟨before, after, ?_, hbefore, hafter⟩
  rw [htrim, scan_stretch hstretch]

/-- The pieces of an argument as neighbours in the equation. -/
theorem exists_scan_between {equation : Text} {ps group qs : List Piece} {p : Piece}
    (h : scan equation = ps ++ (group ++ p :: qs)) (hp : EndsArgument p) : ∃ before after,
      group = before ++ scan (Text.trim (group.flatMap source)) ++ after ∧
      before.filterMap token? = [] ∧ after.filterMap token? = [] ∧
      scan equation =
        (ps ++ before) ++ scan (Text.trim (group.flatMap source)) ++ (after ++ p :: qs) := by
  have hscan : scan equation = ps ++ group ++ p :: qs := h.trans (by simp)
  obtain ⟨before, after, hgroup, hbefore, hafter⟩ := exists_scan_trim ⟨ps, p, qs, hscan, hp⟩
  refine ⟨before, after, hgroup, hbefore, hafter, ?_⟩
  conv_lhs => rw [h, hgroup]
  simp

theorem ofEquation_trim_run {equation : Text} {qs : List Piece} (h : IsRun (scan equation) qs) :
    Token.ofEquation (Text.trim (qs.flatMap source)) = qs.filterMap token? := by
  obtain ⟨before, after, hqs, hbefore, hafter⟩ := exists_scan_trim h
  conv_rhs => rw [hqs]
  simp [Token.ofEquation, hbefore, hafter]

/-- What an argument refers to can be read wherever a name may end. -/
theorem isKey_of_mem_references {d : Dialect} {equation k : Text} {qs : List Piece}
    (h : IsRun (scan equation) qs) (hk : k ∈ references d (Text.trim (qs.flatMap source))) :
    IsKey k ∧ d.reserves k = false := by
  obtain ⟨before, after, hqs, -, -⟩ := exists_scan_trim h
  obtain ⟨pre, p, post, hscan, -⟩ := h
  obtain ⟨hr, q, hq, hkey⟩ := mem_references hk
  obtain ⟨us, vs, hrest⟩ := List.append_of_mem hq
  have hq : scan equation = (pre ++ before ++ us) ++ q :: (vs ++ after ++ p :: post) := by
    rw [hrest] at hqs
    rw [hscan, hqs]
    simp
  rcases isKey_of_scan hq hkey with hkey | ⟨hn, -, -⟩
  · exact ⟨hkey, hr⟩
  · exact absurd hn (List.append_ne_nil_of_right_ne_nil _ (List.cons_ne_nil _ _))

/-- The equation refers to whatever an argument refers to. A name at the end of an argument is
followed by what ends the argument, so it is no call in the equation either. -/
theorem references_subset {d : Dialect} {equation : Text} {qs : List Piece}
    (h : IsRun (scan equation) qs) :
    references d (Text.trim (qs.flatMap source)) ⊆ references d equation := by
  intro k hk
  rw [references, List.mem_eraseDups, ofEquation_trim_run h] at hk
  obtain ⟨before, p, after, hscan, hp⟩ := h
  have htokens : Token.ofEquation equation = before.filterMap token? ++
      (qs.filterMap token? ++ (p :: after).filterMap token?) := by
    rw [Token.ofEquation, hscan]
    simp
  have hnext : ((p :: after).filterMap token?).head? ≠ some .lparen := by
    rcases hp with hp | hp | hp <;> simp [hp]
  rw [references, List.mem_eraseDups, htokens]
  refine Reference.mem_ofTokens_append _ ?_
  rw [Reference.ofTokens_append hnext]
  exact List.mem_append_left _ hk

end StockFlow
