import StockFlow.Proofs.Spans

/-! What a literal holds. Its quote opens a stretch that reaches to the first later quote that is
not escaped, or to the end of the text, and the literal holds this stretch with one exception. Where
a literal ends is found with regard to escapes, but whether a quote has ended it is asked of its
last character alone. So where no quote ends the literal and the text ends with an escaped one, the
literal lacks that quote. -/
namespace StockFlow

namespace Text

/-- A delimiter right before the text opens a stretch of it: all before the first delimiter that is
not escaped, or all of the text if it has no such delimiter. -/
inductive Opens (delimiter : Char) (t stretch : Text) : Prop where
  | closed (after : Text) : t = stretch ++ delimiter :: after → NeverClosed delimiter [] stretch →
      escapes stretch = false → Opens delimiter t stretch
  | unended : t = stretch → NeverClosed delimiter [] t → Opens delimiter t stretch

/-- No delimiter closes the text, though one stands at its end: that one is escaped. -/
def EndsEscaped (delimiter : Char) (t : Text) : Prop :=
  NeverClosed delimiter [] t ∧ t.getLast? = some delimiter

variable {delimiter : Char} {t x y : Text}

theorem neverClosed_of_not_mem (h : delimiter ∉ t) : NeverClosed delimiter [] t := by
  rintro u v rfl
  simp at h

/-- A delimiter at the end of the text leaves it open only if it is escaped. -/
theorem neverClosed_concat_iff (h : NeverClosed delimiter [] t) :
    NeverClosed delimiter [] (t ++ [delimiter]) ↔ escapes t = true := by
  constructor
  · intro hconcat
    exact hconcat t [] rfl
  · intro hends u v heq
    rcases v.eq_nil_or_concat' with rfl | ⟨v, c, rfl⟩
    · obtain rfl : t = u := List.append_cancel_right heq
      exact hends
    · rw [← List.cons_append, ← List.append_assoc] at heq
      exact h u v (List.append_inj' heq rfl).1

theorem Opens.neverClosed (h : Opens delimiter t x) : NeverClosed delimiter [] x := by
  cases h with
  | closed _ _ h _ => exact h
  | unended heq h => exact heq ▸ h

theorem Opens.starts (h : Opens delimiter t x) : x <+: t := by
  cases h with
  | closed after heq _ _ => exact ⟨delimiter :: after, heq.symm⟩
  | unended heq _ => exact heq ▸ List.prefix_rfl

/-- A longer stretch would hold the delimiter that ends the shorter one, which is not escaped. -/
theorem Opens.eq_of_starts (h : Opens delimiter t x) (h' : Opens delimiter t y) (hxy : x <+: y) :
    x = y := by
  obtain ⟨more, rfl⟩ := hxy
  obtain ⟨rest, heq⟩ := h'.starts
  cases more with
  | nil => exact (List.append_nil x).symm
  | cons c more =>
    rw [List.append_assoc] at heq
    cases h with
    | closed after ht _ hends =>
      obtain ⟨rfl, -⟩ := List.cons.inj (List.append_cancel_left (heq.trans ht))
      have hescaped := h'.neverClosed x more rfl
      simp [hends] at hescaped
    | unended ht _ => simp [ht] at heq

/-- An opening delimiter opens one stretch. -/
theorem Opens.eq (h : Opens delimiter t x) (h' : Opens delimiter t y) : x = y := by
  rcases List.prefix_or_prefix_of_prefix h.starts h'.starts with hxy | hyx
  · exact h.eq_of_starts h' hxy
  · exact (h'.eq_of_starts h hyx).symm

/-- The delimiter at the end of the text closes it if it is not escaped. -/
theorem opens_concat_iff (h : NeverClosed delimiter [] t) :
    Opens delimiter (t ++ [delimiter]) t ↔ escapes t = false := by
  constructor
  · intro hopens
    cases hopens with
    | closed _ _ _ hends => exact hends
    | unended heq _ => simp at heq
  · exact .closed [] rfl h

end Text

namespace Piece

open Text (Opens EndsEscaped NeverClosed)

/-- The scanner takes the stretch, with the delimiter that closes it if there is one. -/
theorem exists_opens {delimiter : Char} (hd : delimiter ≠ '\\') (t : Text) :
    ∃ stretch, Opens delimiter t stretch ∧
      (throughClosing delimiter false t = stretch ++ [delimiter] ∧ ¬ NeverClosed delimiter [] t ∨
        throughClosing delimiter false t = stretch ∧ NeverClosed delimiter [] t) := by
  rcases closedBy_or_neverClosed_start hd t with ⟨inner, htake, hopen, hends⟩ | ⟨hall, hopen⟩
  · obtain ⟨after, hafter⟩ := prefix_throughClosing delimiter false t
    have ht : t = inner ++ delimiter :: after := by simpa [htake] using hafter.symm
    refine ⟨inner, .closed after ht hopen hends, .inl ⟨htake, fun hnever => ?_⟩⟩
    exact absurd (hnever inner after ht) (by simpa using hends)
  · exact ⟨t, .unended rfl hopen, .inr ⟨hall, hopen⟩⟩

/-- It takes a delimiter at the end of the text in either case. -/
theorem throughClosing_concat {delimiter : Char} (hd : delimiter ≠ '\\') {t : Text}
    (h : NeverClosed delimiter [] t) :
    throughClosing delimiter false (t ++ [delimiter]) = t ++ [delimiter] := by
  obtain ⟨stretch, hopens, ⟨htake, hclosed⟩ | ⟨htake, hnever⟩⟩ := exists_opens hd (t ++ [delimiter])
  · have hends : Text.escapes t = false := by simpa [Text.neverClosed_concat_iff h] using hclosed
    rw [htake, hopens.eq ((Text.opens_concat_iff h).2 hends)]
  · rw [htake, hopens.eq (.unended rfl hnever)]

theorem literal_of_first {c : Char} {rest s contents : Text}
    (h : first c rest = lexeme s (.literal contents)) :
    c = '\'' ∧ singleQuoted rest = lexeme s (.literal contents) := by
  have hf := isFirst c rest
  rw [h] at hf
  generalize hp : lexeme s (.literal contents) = p at hf ⊢
  cases hf with
  | comment | blanks | paren => simp at hp
  | quoted | bare => rcases word_eq_lexeme hp.symm with ⟨htoken, -⟩ | ⟨_, htoken⟩ <;> simp at htoken
  | literal hc => exact ⟨hc, rfl⟩
  | other _ _ hn => exact absurd (lexeme.inj hp).2.symm (hn contents)

/-- The literal holds what its quote opens, or all of that but an escaped quote at its end. -/
theorem contents_of_singleQuoted {rest s contents : Text}
    (h : singleQuoted rest = lexeme s (.literal contents)) :
    Opens '\'' rest contents ∧ ¬ EndsEscaped '\'' rest ∨
      EndsEscaped '\'' rest ∧ rest = contents ++ ['\''] := by
  have hcontents := Token.literal.inj (lexeme.inj h).2
  obtain ⟨stretch, hopens, ⟨htake, hclosed⟩ | ⟨htake, hnever⟩⟩ :=
    exists_opens (by decide : '\'' ≠ '\\') rest
  · rw [htake] at hcontents
    obtain rfl : stretch = contents := by simpa [Text.dropLast?] using hcontents
    exact .inl ⟨hopens, fun hescaped => hclosed hescaped.1⟩
  · obtain rfl : stretch = rest := hopens.eq (.unended rfl hnever)
    rw [htake] at hcontents
    -- the last character decides, whether or not it is escaped
    by_cases hlast : stretch.getLast? = some '\''
    · rw [Text.dropLast?, if_pos hlast, Option.getD_some] at hcontents
      refine .inr ⟨⟨hnever, hlast⟩, ?_⟩
      rw [← hcontents, List.dropLast_append_getLast? '\'' hlast]
    · rw [Text.dropLast?_eq_none hlast, Option.getD_none] at hcontents
      exact .inl ⟨hcontents ▸ hopens, fun hescaped => hlast hescaped.2⟩

end Piece

namespace Token

open Piece
open Text (Opens EndsEscaped NeverClosed)

/-- A literal is the one that is read after its quote. -/
theorem exists_singleQuoted {t contents : Text} {l : Located} (hl : l ∈ located t)
    (htoken : l.token = .literal contents) : ∃ before rest s, t = before ++ '\'' :: rest ∧
      before.byteSize = l.start ∧ singleQuoted rest = lexeme s (.literal contents) := by
  obtain ⟨ps, s, qs, hscan, hstart, -⟩ := exists_piece hl
  obtain ⟨c, s', more, hfirst, hsource, rfl⟩ := exists_first hscan
  rw [htoken] at hscan hfirst
  obtain ⟨rfl, hquoted⟩ := literal_of_first hfirst.symm
  refine ⟨ps.flatMap source, s' ++ more, s, ?_, hstart.symm, hquoted⟩
  rw [← scan_source t, hscan, List.flatMap_append, List.flatMap_cons, hfirst, hsource, scan_source,
    List.cons_append]

/-- A literal holds the stretch that its quote opens, unless nothing closes it and the text ends
with an escaped quote. Then it holds all of the stretch but this quote. -/
theorem literal_opened_iff {t contents : Text} {l : Located} (hl : l ∈ located t)
    (htoken : l.token = .literal contents) : ∃ before rest, t = before ++ '\'' :: rest ∧
      before.byteSize = l.start ∧ (Opens '\'' rest contents ↔ ¬ EndsEscaped '\'' rest) ∧
      (EndsEscaped '\'' rest → rest = contents ++ ['\'']) := by
  obtain ⟨before, rest, s, ht, hstart, hquoted⟩ := exists_singleQuoted hl htoken
  refine ⟨before, rest, ht, hstart, ?_⟩
  rcases contents_of_singleQuoted hquoted with ⟨hopens, hnot⟩ | ⟨hescaped, hrest⟩
  · exact ⟨iff_of_true hopens hnot, fun hescaped => absurd hescaped hnot⟩
  · refine ⟨iff_of_false (fun hopens => ?_) (not_not_intro hescaped), fun _ => hrest⟩
    have hall := hopens.eq (.unended rfl hescaped.1)
    simp [← hall] at hrest

/-- A quote at the end of a text is taken for the end of the literal, escaped or not. -/
theorem located_quoted {body : Text} (h : NeverClosed '\'' [] body) :
    located ('\'' :: (body ++ ['\''])) = [⟨0, .literal body, body.byteSize + 2⟩] := by
  have hfirst : first '\'' (body ++ ['\''] ++ []) =
      lexeme ('\'' :: (body ++ ['\''])) (.literal body) := by
    rw [List.append_nil, first, singleQuoted, throughClosing_concat (by decide) h]
    simp [Text.dropLast?]
  have hscan := scan_cons (show (first '\'' (body ++ ['\''] ++ [])).source = _ by rw [hfirst]; rfl)
  rw [hfirst, List.append_nil, scan_nil] at hscan
  have hsize : Text.byteSize ('\'' :: (body ++ ['\''])) = body.byteSize + 2 := by
    rw [Text.byteSize, Text.byteSize_append]
    exact Nat.add_comm 1 _
  rw [located, hscan, locate, locate, hsize, Nat.zero_add]

/-- Two literals, with an escaped quote inside the first one and an escaped backslash before the
quote that ends the second one and the text. -/
def escapedLiterals : Text := "'it\\'s' = 'c:\\\\'".toList

theorem escapedLiterals_opened : let contents : Text := "c:\\\\".toList
    let l : Located := ⟨10, .literal contents, 16⟩
    l ∈ located escapedLiterals ∧ l.token = .literal contents ∧
      ∃ before rest, escapedLiterals = before ++ '\'' :: rest ∧ before.byteSize = l.start ∧
        (Opens '\'' rest contents ↔ ¬ EndsEscaped '\'' rest) ∧
        (EndsEscaped '\'' rest → rest = contents ++ ['\'']) := by
  intro contents l
  have hlocated : located escapedLiterals =
      [⟨0, .literal "it\\'s".toList, 7⟩, ⟨8, .op ['='], 9⟩, l] := by
    rw [located, Piece.scan_eq_scanUpTo]
    rfl
  have hl : l ∈ located escapedLiterals := by simp [hlocated]
  exact ⟨hl, rfl, literal_opened_iff hl rfl⟩

/-- Where the only later quote is an escaped one at the end of the text, the literal lacks it. -/
theorem not_all_literals_opened : ¬ ∀ (t contents : Text) (l : Located), l ∈ located t →
    l.token = .literal contents → ∃ before rest, t = before ++ '\'' :: rest ∧
      before.byteSize = l.start ∧ Opens '\'' rest contents := by
  intro hall
  have hopen : NeverClosed '\'' [] ['a', '\\'] := Text.neverClosed_of_not_mem (by decide)
  obtain ⟨before, rest, ht, hstart, hopens⟩ :=
    hall _ _ ⟨0, .literal ['a', '\\'], 4⟩ (by rw [located_quoted hopen]; exact .head _) rfl
  obtain rfl : before = [] := by
    by_contra hne
    exact absurd hstart (Text.byteSize_pos hne).ne'
  obtain rfl := (List.cons.inj ht).2
  exact absurd ((Text.opens_concat_iff hopen).1 hopens) (by decide)

end Token

end StockFlow
