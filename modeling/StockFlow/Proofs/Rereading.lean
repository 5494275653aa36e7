import StockFlow.Proofs.Places

/-! Names read again. The key of a name token, taken by itself, is one token with the same key; so a
declared name refers to itself, and the names that an equation refers to, written with commas between
them, are what that text refers to. A quoted name that is never closed would take in the names after
it, but it can only be the last one. -/
namespace StockFlow

open Piece (IsKey IsUnclosed IsAlone)
open Reference (ofTokens)

/-! ### One name -/

theorem Piece.isAlone_of_scan {t k : Text} {p : Piece} (hp : p ∈ scan t)
    (hk : p.token?.bind Token.key = some k) : IsAlone k := by
  obtain ⟨ps, qs, hscan⟩ := List.append_of_mem hp
  rcases isKey_of_scan hscan hk with hkey | ⟨-, -, hopen⟩
  · exact hkey.isAlone
  · exact hopen.isAlone

theorem Token.isAlone_of_located {t k : Text} {l : Located} (hl : l ∈ located t)
    (hk : l.token.key = some k) : IsAlone k := by
  have hm := List.mem_map_of_mem (f := Located.token) hl
  rw [located, map_token_locate] at hm
  obtain ⟨p, hp, htoken⟩ := List.mem_filterMap.1 hm
  exact Piece.isAlone_of_scan hp (by rw [htoken]; exact hk)

theorem Token.located_of_isAlone {k : Text} (h : IsAlone k) :
    ∃ token, located k = [⟨0, token, k.byteSize⟩] ∧ token.key = some k := by
  obtain ⟨token, hscan, hkey⟩ := h
  exact ⟨token, by simp [located, hscan, locate], hkey⟩

theorem Block.isAlone_of_declared? {line name definition : Text}
    (h : declared? line = some (name, definition)) : IsAlone name := by
  rcases name_of_declared? h with hk | ⟨hu, -⟩
  · exact hk.isAlone
  · exact hu.isAlone

/-! ### Names with commas between them -/

/-- Names of which only the last may be a quoted name that nothing closes. -/
inductive AreListed : List Text → Prop where
  | nil : AreListed []
  | last {k : Text} : IsUnclosed k → AreListed [k]
  | cons {k : Text} {ks : List Text} : IsKey k → AreListed ks → AreListed (k :: ks)

namespace AreListed

variable {ks : List Text}

/-- The last name stays the last one when others are left out. -/
theorem filter (h : AreListed ks) (p : Text → Bool) : AreListed (ks.filter p) := by
  induction h with
  | nil => exact .nil
  | @last k hk =>
    by_cases hp : p k = true
    · simpa [hp] using AreListed.last hk
    · simpa [hp] using AreListed.nil
  | @cons k ks hk _ ih =>
    by_cases hp : p k = true
    · simpa [hp] using AreListed.cons hk ih
    · simpa [hp] using ih

theorem eraseDups : ∀ {ks : List Text}, AreListed ks → AreListed ks.eraseDups
  | _, .nil => .nil
  | _, .last hk => .last hk
  | k :: ks, .cons hk h => by
    rw [List.eraseDups_cons]
    exact .cons hk (eraseDups (h.filter _))
termination_by ks => ks.length
decreasing_by exact Nat.lt_succ_of_le (List.length_filter_le _ _)

/-- A list of names begins with no blank. -/
theorem head (h : AreListed ks) :
    ∀ c ∈ (Text.joinWith ", " ks).head?, Unicode.isBlank c = false := by
  cases h with
  | nil => simp [Text.joinWith]
  | last hk =>
    obtain ⟨body, rfl, -⟩ := hk
    intro c hc
    obtain rfl : '"' = c := by simpa [Text.joinWith] using hc
    decide
  | @cons k ks hk _ =>
    obtain ⟨tail, htail⟩ : ∃ tail, Text.joinWith ", " (k :: ks) = k ++ tail := by
      cases ks with
      | nil => exact ⟨[], by simp [Text.joinWith]⟩
      | cons k' ks => exact ⟨_, by rw [Text.joinWith, List.intercalate_cons_cons, List.append_assoc]⟩
    rw [htail, List.head?_append_of_ne_nil _ hk.isTrimmed.2]
    exact hk.isTrimmed.1.head

/-- What a list of names refers to are the names, in their order. -/
theorem ofTokens_eq {d : Dialect} (h : AreListed ks) (hr : ∀ k ∈ ks, d.reserves k = false) :
    ofTokens d (Token.ofEquation (Text.joinWith ", " ks)) = ks := by
  induction h with
  | nil => simp [Text.joinWith, Token.ofEquation, ofTokens]
  | @last k hk =>
    simpa [Text.joinWith] using ofTokens_of_isAlone hk.isAlone (hr k (.head _))
  | @cons k ks hk hks ih =>
    obtain ⟨hrk, hrks⟩ := List.forall_mem_cons.1 hr
    cases ks with
    | nil => simpa [Text.joinWith] using ofTokens_of_isAlone hk.isAlone hrk
    | cons k' ks =>
      obtain ⟨token, hkey, -, hscan⟩ := hk.scan_append
      have htext : Text.joinWith ", " (k :: k' :: ks) =
          k ++ ',' :: ' ' :: Text.joinWith ", " (k' :: ks) := by
        rw [Text.joinWith, List.intercalate_cons_cons, List.append_assoc]
        rfl
      have htokens : Token.ofEquation (Text.joinWith ", " (k :: k' :: ks)) =
          token :: .comma :: Token.ofEquation (Text.joinWith ", " (k' :: ks)) := by
        rw [htext, Token.ofEquation, hscan _ (Piece.endsName_cons (by simp) _), Piece.scan_comma,
          Piece.scan_space hks.head]
        rfl
      have hcall (rest : List Token) : Reference.isCall d token (.comma :: rest) = false := by
        cases token <;> rfl
      have hcomma : Token.comma.key = none := rfl
      rw [htokens]
      simp [ofTokens, hkey, hcall, hrk, hcomma, ih hrks]

end AreListed

/-- The references of a text, repetitions and all, can be listed. -/
theorem areListed_ofTokens (d : Dialect) (t : Text) :
    AreListed (ofTokens d (Token.ofEquation t)) := by
  induction t using Piece.scan_induction with
  | nil =>
    rw [Token.ofEquation, Piece.scan_nil]
    exact .nil
  | @cons c s more hs ht ih =>
    rw [Token.ofEquation, ht]
    cases htoken : (Piece.first c (s ++ more)).token? with
    | none => rwa [List.filterMap_cons_none htoken]
    | some token =>
      rw [List.filterMap_cons_some htoken, ofTokens]
      split
      next k hkey =>
        split
        · exact ih
        · have hk : (Piece.first c (s ++ more)).token?.bind Token.key = some k := by
            rw [htoken]
            exact hkey
          rcases Piece.isKey_of_first hs hk with hk | ⟨rfl, -, hk⟩
          · exact .cons hk ih
          · rw [Piece.scan_nil]
            exact .last hk
      · exact ih

theorem eraseDups_eraseDups (names : List Text) : names.eraseDups.eraseDups = names.eraseDups := by
  match names with
  | [] => simp
  | name :: names =>
    -- nothing is left for the second pass to take out
    have hkept : (names.filter fun k => !k == name).eraseDups.filter (fun k => !k == name) =
        (names.filter fun k => !k == name).eraseDups := by
      refine List.filter_eq_self.2 fun k hk => ?_
      exact (List.mem_filter.1 (List.mem_eraseDups.1 hk)).2
    rw [List.eraseDups_cons, List.eraseDups_cons, hkept, eraseDups_eraseDups]
termination_by names.length
decreasing_by exact Nat.lt_succ_of_le (List.length_filter_le _ _)

/-- The references of an equation, listed, are the references of the list. -/
theorem references_listed (d : Dialect) (equation : Text) :
    references d (Text.joinWith ", " (references d equation)) = references d equation := by
  have hlisted : AreListed (references d equation) := (areListed_ofTokens d equation).eraseDups
  have htokens := hlisted.ofTokens_eq fun k hk => (mem_references hk).1
  conv_lhs => rw [references, htokens]
  exact eraseDups_eraseDups _

/-- The key of each name token, taken by itself, is one token over the whole of it that has this key;
the references of an equation, listed with commas, are what the list refers to; and a declared name
that is not reserved refers to itself. -/
theorem names_reread :
    (∀ (t k : Text) (l : Token.Located), l ∈ Token.located t → l.token.key = some k →
      ∃ token, Token.located k = [⟨0, token, k.byteSize⟩] ∧ token.key = some k) ∧
    (∀ (d : Dialect) (equation : Text),
      references d (Text.joinWith ", " (references d equation)) = references d equation) ∧
    ∀ (d : Dialect) (line name definition : Text), Block.declared? line = some (name, definition) →
      d.reserves name = false → references d name = [name] := by
  refine ⟨fun t k l hl hk => ?_, references_listed, fun d line name definition hname hr => ?_⟩
  · exact Token.located_of_isAlone (Token.isAlone_of_located hl hk)
  · exact references_of_isAlone (Block.isAlone_of_declared? hname) hr

/-- Names of every kind, one of them twice and the last one never closed. -/
def mixedNames : Text := "pop [ a , b ] + MAX(x y) * pop[a,b] - MAX + \"open, end".toList

theorem mixedNames_located :
    (Token.located mixedNames)[11]? = some ⟨44, .ident "\"open, end".toList, 54⟩ := by
  rw [Token.located, Piece.scan_eq_scanUpTo]
  rfl

theorem spacedName_declared :
    Block.declared? "pop [ a , b ]= 1".toList = some ("pop[a,b]".toList, "= 1".toList) := by
  rw [Block.declared?, Piece.scan_eq_scanUpTo]
  rfl

theorem mixedNames_reread :
    ⟨44, .ident "\"open, end".toList, 54⟩ ∈ Token.located mixedNames ∧
    (∃ token, Token.located "\"open, end".toList = [⟨0, token, 10⟩] ∧
      token.key = some "\"open, end".toList) ∧
    references .standard (Text.joinWith ", " (references .standard mixedNames)) =
      references .standard mixedNames ∧
    Block.declared? "pop [ a , b ]= 1".toList = some ("pop[a,b]".toList, "= 1".toList) ∧
    Dialect.standard.reserves "pop[a,b]".toList = false ∧
    references .standard "pop[a,b]".toList = ["pop[a,b]".toList] := by
  have hm := List.mem_of_getElem? mixedNames_located
  have hr : Dialect.standard.reserves "pop[a,b]".toList = false := by decide
  obtain ⟨hkey, hlisted, hdeclared⟩ := names_reread
  exact ⟨hm, hkey mixedNames _ _ hm rfl, hlisted .standard mixedNames, spacedName_declared, hr,
    hdeclared .standard _ _ _ spacedName_declared hr⟩

end StockFlow
