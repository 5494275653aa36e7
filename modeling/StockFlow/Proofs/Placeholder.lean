import StockFlow.Proofs.Catalogs
import StockFlow.Proofs.Joining
import StockFlow.Proofs.Spellings
import StockFlow.Variable.Block

/-! The placeholder call that stands for a missing equation. It is read back as the call it is: the
name of the function spells itself, and the arguments, which are names that can be read wherever a
name may end, are found as they were listed. For this the name of the function has to be a name,
which the options of a dialect do not ensure. -/
namespace StockFlow

open Text (IsTrimmed)

/-! ### The arguments as written -/

namespace Piece

theorem IsKey.isTrimmed {k : Text} (h : IsKey k) : IsTrimmed k ∧ k ≠ [] := by
  obtain ⟨token, -, -, hscan⟩ := h.scan_append
  have hs := hscan [','] (endsName_cons (by simp) [])
  have hn : scan [','] ≠ [] := by
    rw [scan]
    exact List.cons_ne_nil _ _
  cases isTidy_of_scan (show _ = [] ++ _ :: _ from hs) hn with
  | trimmed hne ht => exact ⟨ht, hne⟩

/-- A key is one token, wherever a name may end. -/
theorem IsKey.scan_eq {k : Text} (h : IsKey k) : ∃ token, token.key = some k ∧
    scan k = [lexeme k token] ∧ ∀ tail, EndsName tail → scan (k ++ tail) = scan k ++ scan tail := by
  obtain ⟨token, hkey, -, hscan⟩ := h.scan_append
  have hk : scan k = [lexeme k token] := by
    have hs := hscan [] endsName_nil
    rwa [List.append_nil, scan_nil] at hs
  exact ⟨token, hkey, hk, fun tail ht => by rw [hscan tail ht, hk, List.singleton_append]⟩

end Piece

namespace Call

open Piece

theorem apart_of_isKey {k : Text} {ks : List Text} (h : ∀ x ∈ k :: ks, IsKey x) : Apart k ks := by
  induction ks generalizing k with
  | nil =>
    obtain ⟨token, -, -, hscan⟩ := (h k (.head _)).scan_eq
    exact .last (hscan _ (endsName_cons (by simp) _))
  | cons k' ks ih =>
    obtain ⟨hk, hks⟩ := List.forall_mem_cons.1 h
    obtain ⟨token, -, -, hscan⟩ := hk.scan_eq
    exact .cons (hscan _ (endsName_cons (by simp) _)) (ih hks)

/-- The arguments of a written call are the names that were listed. -/
theorem arguments_listed {function k : Text} {ks : List Text} (hf : IsName function)
    (h : ∀ x ∈ k :: ks, IsKey x) :
    arguments (function ++ '(' :: Text.joinWith ", " (k :: ks) ++ [')']) function =
      .ok (k :: ks) := by
  refine arguments_joined hf rfl (apart_of_isKey h) (fun x hx => ⟨(h x hx).isTrimmed.1, ?_⟩)
    fun _ => (h k (.head _)).isTrimmed.2
  obtain ⟨token, hkey, hscan, -⟩ := (h x hx).scan_eq
  have htokens : Token.ofEquation x = [token] := by rw [Token.ofEquation, hscan]; rfl
  rw [htokens]
  exact Token.isArgument_of_key hkey

/-- A call that is found is the call of a name. -/
theorem isKey_of_find? {equation function : Text} {offset start : Nat} {ps qs : List Piece}
    (hs : scan equation = qs ++ ps) {inside : List Piece}
    (h : find? function offset ps = some (start, inside)) :
    ∃ name, IsKey name ∧ canonicalName name = function := by
  induction ps generalizing offset qs with
  | nil => simp [find?] at h
  | cons p ps ih =>
    have hs' : scan equation = (qs ++ [p]) ++ ps := by simpa using hs
    simp only [find?] at h
    split at h
    next name htoken =>
      split at h
      next hname =>
        split at h
        next hin =>
          have hkey : p.token?.bind Token.key = some name := by simp [htoken, Token.key]
          rcases isKey_of_scan hs hkey with hk | ⟨rfl, -, -⟩
          · exact ⟨name, hk, hname⟩
          · simp [afterParen?] at hin
        · exact ih hs' h
      · exact ih hs' h
    · exact ih hs' h

end Call

/-! ### How a function name begins -/

open Unicode (isBlank)

namespace Piece

/-- A character that no name has in front of its first letter. -/
def IsForeign (c : Char) : Prop := isBlank c = true ∨ c = '~'

theorem IsForeign.caseless {c : Char} (h : IsForeign c) :
    Unicode.caseless.contains c.toNat = true := by
  rcases h with hb | rfl
  · exact Unicode.caseless_of_isBlank hb
  · decide

theorem not_isForeign_of_mem_bare {c : Char} {n : Text} (hc : isNameStart c = true)
    (hn : nameTail n = n) {x : Char} (hx : x ∈ c :: n) (hs : isNameSeparator x = false) :
    ¬ IsForeign x := by
  have hstart : ¬ isNameStart '~' = true := by decide
  have hcontinue : ¬ isNameContinue '~' = true := by decide
  rcases List.mem_cons.1 hx with rfl | hx
  · rintro (hb | rfl)
    · simp [not_isNameStart_of_isBlank hb] at hc
    · exact hstart hc
  · have hp := all_of_nameTail hn x hx
    have hspacing : isSpacing x = false := by
      simp only [isNameSeparator, Bool.or_eq_false_iff] at hs
      simp [isSpacing, hs]
    simp only [hspacing, Bool.or_false] at hp
    rintro (hb | rfl)
    · simp [not_isNameContinue_of_isBlank hb] at hp
    · exact hcontinue hp

theorem not_isForeign_head {name rest : Text} (h : IsName name)
    (hr : ∀ x ∈ (rest.dropWhile isNameSeparator).head?, ¬ IsForeign x) :
    ∀ x ∈ ((name ++ rest).dropWhile isNameSeparator).head?, ¬ IsForeign x := by
  intro x hx
  cases h with
  | @quoted body =>
    have hq : ('"' :: body ++ rest).dropWhile isNameSeparator = '"' :: body ++ rest :=
      List.dropWhile_cons_of_neg (by decide)
    rw [hq] at hx
    obtain rfl : '"' = x := by simpa using hx
    unfold IsForeign
    decide
  | @bare c n hc hn =>
    rw [List.dropWhile_append] at hx
    split at hx
    · exact hr x hx
    next hne =>
      have hm := List.mem_of_mem_head? hx
      have hsep : isNameSeparator x = false := by
        refine not_isNameSeparator_head (c :: n) x ?_
        rwa [List.head?_append_of_ne_nil _ (by simpa using hne)] at hx
      refine not_isForeign_of_mem_bare hc hn ?_ hsep
      rw [List.head?_append_of_ne_nil _ (by simpa using hne)] at hx
      exact (List.dropWhile_sublist _).subset (List.mem_of_mem_head? hx)

theorem IsKey.not_isForeign {k : Text} (h : IsKey k) :
    ∀ x ∈ (k.dropWhile isNameSeparator).head?, ¬ IsForeign x := by
  cases h with
  | name h => simpa using @not_isForeign_head _ [] h (by simp)
  | @element name subscript h =>
    rw [Token.elementName_eq, List.append_assoc]
    refine not_isForeign_head h ?_
    simp [isNameSeparator, IsForeign]
    decide

end Piece

/-- The name of a function that is called begins neither with a blank nor with a tilde. -/
theorem not_isForeign_of_arguments {function : FunctionName} {equation : Text} {args : List Text}
    (h : Call.arguments equation function.text = .ok args) :
    ∀ c ∈ function.text.head?, ¬ Piece.IsForeign c := by
  intro c hc hforeign
  unfold Call.arguments at h
  split at h
  · simp at h
  next start inside hf =>
    obtain ⟨name, hkey, hname⟩ := Call.isKey_of_find? (show _ = [] ++ _ from rfl) hf
    obtain ⟨n, hn⟩ := function.isCanonical
    obtain ⟨rest, hrest⟩ := List.head?_eq_some_iff.1 hc
    have hsep : isNameSeparator c = false :=
      not_isNameSeparator_head_canonicalName n c (by rw [hn]; exact hc)
    -- a character without case stays where it is
    have hhead : c ∈ (canonicalName name).head? := by
      rw [hname, canonicalName_eq, hrest, List.dropWhile_cons_of_neg (by simp [hsep])]
      simp [Unicode.upperCase_of_caseless hforeign.caseless]
    obtain ⟨x, hx, hcx⟩ := head_canonicalName c hhead
    obtain rfl := Unicode.eq_of_mem_upperCase hcx hforeign.caseless
    exact hkey.not_isForeign c hx hforeign

/-- The name of the default placeholder can be read. -/
theorem isName_default {function : Text} (h : function = "A FUNCTION OF".toList) :
    Piece.IsName function := by
  have htext : function = 'A' :: " FUNCTION OF".toList := h
  rw [htext]
  exact .bare (by decide) (by decide)

theorem isName_standard : Piece.IsName Dialect.standard.placeholder.text :=
  isName_default (by decide)

end StockFlow
