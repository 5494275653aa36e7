import StockFlow.Proofs.Arguments

/-! Arguments joined to a call. What a text opens it closes, and it has no comma outside of that, if
it can be an argument. Where several such texts are written into a call and each is scanned there as
it is by itself, the call has just these arguments. -/
namespace StockFlow

open Text (IsTrimmed)

/-! ### Pieces with a name or a delimiter before others -/

namespace Piece

open Unicode (isBlank)

theorem endsName_cons {c : Char} (h : c ∈ ['(', ',', ')', '=', ':']) (tail : Text) :
    EndsName (c :: tail) := by
  have hall : (['(', ',', ')', '=', ':'].all fun c =>
      !isNameContinue c && !isSpacing c && c != '[') = true := by
    decide
  have hc := List.all_eq_true.1 hall c h
  simp only [Bool.and_eq_true, Bool.not_eq_true', bne_iff_ne, ne_eq] at hc
  exact ⟨by simpa using hc.1.1, by simpa using hc.1.2, by simpa using hc.2⟩

theorem scan_comma (t : Text) : scan (',' :: t) = lexeme [','] .comma :: scan t := by
  have h : scan (',' :: ([] ++ t)) = first ',' ([] ++ t) :: scan t := scan_cons rfl
  exact h

theorem scan_lparen (t : Text) : scan ('(' :: t) = lexeme ['('] .lparen :: scan t := by
  have h : scan ('(' :: ([] ++ t)) = first '(' ([] ++ t) :: scan t := scan_cons rfl
  exact h

theorem scan_rparen (t : Text) : scan (')' :: t) = lexeme [')'] .rparen :: scan t := by
  have h : scan (')' :: ([] ++ t)) = first ')' ([] ++ t) :: scan t := scan_cons rfl
  exact h

theorem scan_space {t : Text} (h : ∀ c ∈ t.head?, isBlank c = false) :
    scan (' ' :: t) = gap [' '] :: scan t := by
  have ht : t.takeWhile isBlank = [] := by
    cases t with
    | nil => rfl
    | cons c t => simp [h c rfl]
  have hf : first ' ' ([] ++ t) = gap [' '] := by
    rw [first_plain (by decide), firstPlain, if_pos (by decide), List.nil_append, ht]
  have hs : scan (' ' :: ([] ++ t)) = first ' ' ([] ++ t) :: scan t := scan_cons (by rw [hf]; rfl)
  rwa [hf] at hs

end Piece

/-! ### Tokens of one argument -/

namespace Token

theorem isArgument_of_key {token : Token} {k : Text} (h : token.key = some k) :
    IsArgument [token] := by
  cases token with
  | ident | subscripted => rfl
  | _ => simp [key] at h

end Token

namespace Call

open Piece

/-- Tokens of an argument are passed over, and what they are made of goes to the argument. -/
theorem split?_append {depth depth' : Nat} {group : List Piece}
    (h : (group.filterMap token?).foldlM Token.pass depth = some depth') (rest : List Piece) :
    split? depth (group ++ rest) = (split? depth' rest).map fun (argument, arguments) =>
      (group.flatMap source ++ argument, arguments) := by
  induction group generalizing depth with
  | nil =>
    obtain rfl : depth = depth' := Option.some.inj h
    simp
  | cons p group ih =>
    cases p with
    | gap s =>
      rw [List.cons_append, split?_gap, ih h, Option.map_map]
      simp [Function.comp_def, source]
    | lexeme s token =>
      have hfold : (token :: group.filterMap token?).foldlM Token.pass depth = some depth' := h
      rw [List.foldlM_cons] at hfold
      obtain ⟨next, hnext, hfold⟩ := Option.bind_eq_some_iff.1 hfold
      obtain ⟨hinner, henter⟩ := Token.pass_eq_some hnext
      rw [List.cons_append, split?_lexeme, if_neg hinner, henter]
      simp only [ih hfold, Option.map_map]
      simp [Function.comp_def, source]

/-! ### Joined texts -/

/-- What a call holds after its parenthesis when these are its arguments. -/
def joined (a : Text) : List Text → Text
  | [] => a ++ [')']
  | b :: others => a ++ ',' :: ' ' :: joined b others

theorem joinWith_append (a : Text) (others : List Text) :
    Text.joinWith ", " (a :: others) ++ [')'] = joined a others := by
  induction others generalizing a with
  | nil => simp [Text.joinWith, joined]
  | cons b others ih =>
    rw [joined, ← ih b, Text.joinWith, List.intercalate_cons_cons]
    simp [Text.joinWith]

theorem mem_joined {c : Char} {a : Text} {others : List Text} (h : c ∈ joined a others) :
    c ∈ [',', ' ', ')'] ∨ ∃ x ∈ a :: others, c ∈ x := by
  rw [← joinWith_append] at h
  rcases List.mem_append.1 h with h | h
  · rcases Text.mem_intercalate h with h | h
    · have hsub : ", ".toList ⊆ [',', ' ', ')'] := by decide
      exact .inl (hsub h)
    · exact .inr h
  · exact .inl (.tail _ (.tail _ h))

theorem head_joined {a : Text} (ha : IsTrimmed a) (others : List Text) :
    ∀ c ∈ (joined a others).head?, Unicode.isBlank c = false := by
  intro c hc
  by_cases hn : a = []
  · subst hn
    cases others <;>
    · obtain rfl := Option.some.inj hc
      decide
  · refine ha.head c ?_
    cases others <;> rwa [joined, List.head?_append_of_ne_nil _ hn] at hc

/-- Each text is scanned, with those after it in the call, as it is by itself. -/
inductive Apart : Text → List Text → Prop where
  | last {a : Text} : scan (a ++ [')']) = scan a ++ scan [')'] → Apart a []
  | cons {a b : Text} {others : List Text} :
      scan (a ++ ',' :: ' ' :: joined b others) =
        scan a ++ scan (',' :: ' ' :: joined b others) →
      Apart b others → Apart a (b :: others)

section Joined

variable {a : Text} {others : List Text}

/-- The texts are what is found, each with the space that stands before it. -/
theorem split?_joined (hapart : Apart a others)
    (h : ∀ x ∈ a :: others, IsTrimmed x ∧ Token.IsArgument (Token.ofEquation x)) :
    split? 0 (scan (joined a others)) = some (a, others.map (' ' :: ·)) := by
  induction hapart with
  | @last a hscan =>
    rw [joined, hscan, split?_append (h a (.head _)).2, scan_rparen, scan_source]
    simp [split?, token?]
  | @cons a b others hscan _ ih =>
    obtain ⟨ha, hothers⟩ := List.forall_mem_cons.1 h
    have hhead := head_joined (hothers b (.head _)).1 others
    rw [joined, hscan, split?_append ha.2, scan_comma, scan_space hhead, scan_source]
    simp [split?, token?, source, ih hothers]

theorem trimmed_joined (h : ∀ x ∈ a :: others, IsTrimmed x) (hne : others = [] → a ≠ []) :
    trimmed (a, others.map (' ' :: ·)) = a :: others := by
  obtain ⟨ha, hothers⟩ := List.forall_mem_cons.1 h
  have hspace : ∀ x ∈ others, Text.trim (' ' :: x) = x := by
    intro x hx
    have ht : Text.trim ([' '] ++ x ++ []) = x :=
      (hothers x hx).trim_surrounded (by simp; decide) (by simp)
    simpa using ht
  have hmap : (others.map (' ' :: ·)).map Text.trim = others := by
    rw [List.map_map]
    conv_rhs => rw [← List.map_id others]
    exact List.map_congr_left hspace
  cases others with
  | nil => simp [trimmed, ha.trim_eq, hne rfl]
  | cons b others =>
    have hcons : trimmed (a, (b :: others).map (' ' :: ·)) =
        Text.trim a :: ((b :: others).map (' ' :: ·)).map Text.trim := rfl
    rw [hcons, hmap, ha.trim_eq]

end Joined

/-! ### Calls of joined texts -/

section Calls

variable {function name : Text} (hname : IsName name)
  (hfunction : canonicalName name = canonicalName function)
include hname hfunction

theorem find?_call (t : Text) :
    find? (canonicalName function) 0 (scan (name ++ '(' :: t)) = some (0, scan t) := by
  rw [hname.scan_append (endsName_cons (by simp) t), scan_lparen]
  simp [find?, token?, afterParen?, hfunction]

/-- The arguments of a call are the texts that were joined to it. -/
theorem arguments_joined {a : Text} {others : List Text} (hapart : Apart a others)
    (h : ∀ x ∈ a :: others, IsTrimmed x ∧ Token.IsArgument (Token.ofEquation x))
    (hne : others = [] → a ≠ []) :
    arguments (name ++ '(' :: Text.joinWith ", " (a :: others) ++ [')']) function =
      .ok (a :: others) := by
  have htext : name ++ '(' :: Text.joinWith ", " (a :: others) ++ [')'] =
      name ++ '(' :: joined a others := by
    rw [← joinWith_append]
    simp
  simp only [arguments, htext, find?_call hname hfunction, split?_joined hapart h,
    trimmed_joined (fun x hx => (h x hx).1) hne]

theorem arguments_empty : arguments (name ++ '(' :: Text.joinWith ", " [] ++ [')']) function =
    .ok [] := by
  have htext : name ++ '(' :: Text.joinWith ", " [] ++ [')'] = name ++ '(' :: [')'] := by
    simp [Text.joinWith]
  simp only [arguments, htext, find?_call hname hfunction, scan_rparen]
  rfl

end Calls

end Call

end StockFlow
