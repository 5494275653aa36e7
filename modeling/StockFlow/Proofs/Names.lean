import StockFlow.Equation.Token
import StockFlow.Proofs.Scanning

/-! Names that are read back as they are written. A token that names a variable gives it a key, and
the key, written where a name may end, is again a token with this key. The one exception is a quoted
name that is never closed: it runs to the end of the text, so it is read back only there. -/
namespace StockFlow

/-! ### Pieces between separators -/

namespace Text

theorem split_eq_splitOnP {α : Type} (p : α → Bool) (t : List α) : split p t = t.splitOnP p := by
  induction t with
  | nil => rfl
  | cons c rest ih =>
    have hr : rest.splitOnP p = (cut p rest).1 :: (cut p rest).2 := ih.symm
    rw [List.splitOnP_cons_eq_if_modifyHead, hr]
    cases hc : p c <;> simp [split, cut, hc]

/-- Splitting finds the pieces that were joined. -/
theorem split_intercalate {c : Char} {pieces : List Text} (h : ∀ p ∈ pieces, c ∉ p)
    (hn : pieces ≠ []) : split (· == c) (List.intercalate [c] pieces) = pieces := by
  rw [split_eq_splitOnP]
  exact List.splitOn_intercalate c h hn

theorem mem_of_mem_split {α : Type} {p : α → Bool} {t piece : List α} {c : α}
    (h : piece ∈ split p t) (hc : c ∈ piece) : c ∈ t ∧ p c = false := by
  induction t generalizing piece with
  | nil =>
    obtain rfl : piece = [] := by simpa [split, cut] using h
    simp at hc
  | cons d rest ih =>
    have hr : ∀ q ∈ split p rest, c ∈ q → c ∈ d :: rest ∧ p c = false := fun q hq hcq =>
      ⟨.tail _ (ih hq hcq).1, (ih hq hcq).2⟩
    simp only [split, cut] at h hr
    split at h
    · rcases List.mem_cons.1 h with rfl | h
      · simp at hc
      · exact hr piece h hc
    next hd =>
      rcases List.mem_cons.1 h with rfl | h
      · rcases List.mem_cons.1 hc with rfl | hc
        · exact ⟨.head _, by simpa using hd⟩
        · exact hr _ (.head _) hc
      · exact hr piece (.tail _ h) hc

theorem mem_intercalate {c : Char} {separator : Text} {pieces : List Text}
    (h : c ∈ List.intercalate separator pieces) : c ∈ separator ∨ ∃ p ∈ pieces, c ∈ p := by
  induction pieces with
  | nil => simp at h
  | cons p ps ih =>
    cases ps with
    | nil => exact .inr ⟨p, .head _, by simpa using h⟩
    | cons q ps =>
      rw [List.intercalate_cons_cons] at h
      rcases List.mem_append.1 h with h | h
      · rcases List.mem_append.1 h with h | h
        · exact .inr ⟨p, .head _, h⟩
        · exact .inl h
      · exact (ih h).imp_right fun ⟨r, hr, hc⟩ => ⟨r, .tail _ hr, hc⟩

theorem trim_sublist (t : Text) : (trim t).Sublist t :=
  (List.rdropWhile_prefix _ _).sublist.trans (List.dropWhile_sublist _)

end Text

/-! ### Subscripts -/

namespace Token

/-- A subscript with the blanks around its elements taken away. -/
def elements (subscript : Text) : Text :=
  Text.joinWith "," ((Text.split (· == ',') subscript).map Text.trim)

theorem elementName_eq (name subscript : Text) :
    elementName name subscript = name ++ '[' :: elements subscript ++ [']'] := rfl

theorem mem_of_mem_elements {c : Char} {subscript piece : Text}
    (h : piece ∈ (Text.split (· == ',') subscript).map Text.trim) (hc : c ∈ piece) :
    c ∈ subscript ∧ c ≠ ',' := by
  obtain ⟨q, hq, rfl⟩ := List.mem_map.1 h
  have hm := Text.mem_of_mem_split hq ((Text.trim_sublist q).subset hc)
  exact ⟨hm.1, by simpa using hm.2⟩

theorem elements_elements (subscript : Text) : elements (elements subscript) = elements subscript := by
  have hsplit := Text.split_intercalate (fun p hp hc => (mem_of_mem_elements hp hc).2 rfl)
    (by simp [Text.split] : (Text.split (· == ',') subscript).map Text.trim ≠ [])
  have htrim (q : Text) : Text.trim (Text.trim q) = Text.trim q := (Text.isTrimmed_trim q).trim_eq
  unfold elements Text.joinWith
  rw [show ",".toList = [','] from rfl, hsplit, List.map_map]
  congr 1
  exact List.map_congr_left fun q _ => htrim q

theorem not_mem_elements {c : Char} {subscript : Text} (h : c ∉ subscript) (hc : c ≠ ',') :
    c ∉ elements subscript := by
  intro hm
  rcases Text.mem_intercalate hm with hm | ⟨p, hp, hm⟩
  · exact hc (by simpa using hm)
  · exact h (mem_of_mem_elements hp hm).1

end Token

/-! ### Names -/

namespace Piece

open Unicode (isBlank)

/-- No longer a name: what follows neither goes on with it nor opens its subscript. -/
structure EndsName (tail : Text) : Prop where
  notContinue : ∀ c ∈ tail.head?, isNameContinue c = false
  notSpacing : ∀ c ∈ tail.head?, isSpacing c = false
  notBracket : tail.head? ≠ some '['

theorem endsName_nil : EndsName [] := ⟨by simp, by simp, by simp⟩

/-- The quoted text ends with its delimiter, whatever follows it. -/
def Closes (delimiter : Char) (escaped : Bool) (body : Text) : Prop :=
  ∀ tail, throughClosing delimiter escaped (body ++ tail) = body

/-- What something follows has been closed. -/
theorem closes_of_followed {delimiter : Char} {escaped : Bool} {t tail : Text}
    (h : t = throughClosing delimiter escaped t ++ tail) (hn : tail ≠ []) :
    Closes delimiter escaped (throughClosing delimiter escaped t) := by
  induction t generalizing escaped with
  | nil => exact absurd h.symm hn
  | cons c rest ih =>
    rcases throughClosing_cons delimiter escaped c with ⟨-, hends⟩ | ⟨escaped', hgoes⟩
    · rw [hends]
      exact hends
    · rw [hgoes] at h ⊢
      intro more
      rw [List.cons_append, hgoes, ih (List.cons.inj h).2 more]

/-- A text that is taken whole is closed, or what follows it is taken too. -/
theorem closes_or_open {delimiter : Char} {escaped : Bool} {t : Text}
    (h : throughClosing delimiter escaped t = t) : Closes delimiter escaped t ∨
      ∃ escaped', ∀ more, throughClosing delimiter escaped (t ++ more) =
        t ++ throughClosing delimiter escaped' more := by
  induction t generalizing escaped with
  | nil => exact .inr ⟨escaped, fun more => rfl⟩
  | cons c rest ih =>
    rcases throughClosing_cons delimiter escaped c with ⟨-, hends⟩ | ⟨escaped', hgoes⟩
    · rw [hends] at h
      obtain rfl := (List.cons.inj h).2
      exact .inl hends
    · rw [hgoes] at h
      refine (ih (List.cons.inj h).2).imp (fun hclosed tail => ?_) fun ⟨escaped'', hopen⟩ => ?_
      · rw [List.cons_append, hgoes, hclosed tail]
      · exact ⟨escaped'', fun more => by rw [List.cons_append, hgoes, hopen more, List.cons_append]⟩

/-- A name as a token holds it. -/
inductive IsName : Text → Prop where
  | bare {c : Char} {n : Text} (starts : isNameStart c = true) (ends : nameTail n = n) :
      IsName (c :: n)
  | quoted {body : Text} (closes : Closes '"' false body) : IsName ('"' :: body)

theorem all_of_nameTail {n : Text} (hn : nameTail n = n) :
    ∀ c ∈ n, (isNameContinue c || isSpacing c) = true := by
  intro c hc
  rw [← hn] at hc
  have hm : c ∈ n.takeWhile fun c => isNameContinue c || isSpacing c :=
    (List.rdropWhile_prefix isSpacing _).subset hc
  have hp := List.mem_takeWhile_imp hm
  exact hp

/-- Blanks after a name are no part of it, unless it goes on after them. -/
theorem nameTail_append {n tail : Text} (hn : nameTail n = n)
    (ht : ∀ c ∈ tail.takeWhile fun c => isNameContinue c || isSpacing c, isSpacing c = true) :
    nameTail (n ++ tail) = n := by
  have hall := all_of_nameTail hn
  have hself : n.takeWhile (fun c => isNameContinue c || isSpacing c) = n := by simpa using hall
  rw [nameTail, List.takeWhile_append_of_pos hall, Text.dropTrailing_append ht]
  rw [nameTail, hself] at hn
  exact hn

theorem nameTail_nameTail (rest : Text) : nameTail (nameTail rest) = nameTail rest := by
  obtain ⟨more, hm⟩ := prefix_nameTail rest
  have h := stable_nameTail (nameTail rest) more (by rw [hm])
  rw [hm] at h
  exact h

theorem not_mem_decisive_of_isNameStart {c : Char} (h : isNameStart c = true) :
    c ∉ decisive := by
  have hd : (decisive.all fun d => !isNameStart d) = true := by decide
  intro hc
  simpa [h] using List.all_eq_true.1 hd c hc

theorem not_mem_decisive_of_isBlank {c : Char} (h : isBlank c = true) : c ∉ decisive := by
  have hd : (decisive.all fun d => !isBlank d) = true := by decide
  intro hc
  simpa [h] using List.all_eq_true.1 hd c hc

theorem first_word {c : Char} (h : isNameStart c = true) (rest : Text) :
    first c rest = word c nameTail rest := by
  have hb : isBlank c = false := by
    by_contra hb
    simp [not_isNameStart_of_isBlank (by simpa using hb)] at h
  have hd : c.isDigit = false := by
    by_contra hd
    simp [not_isNameStart_of_isDigit (by simpa using hd)] at h
  have hpoint : c ≠ '.' := by
    rintro rfl
    exact absurd h (by decide)
  rw [first_plain (not_mem_decisive_of_isNameStart h), firstPlain]
  simp [hb, startsNumeral, hd, hpoint, h]

/-- What starts with a name, in a place where the name may end. -/
theorem IsName.first_eq {name : Text} (h : IsName name) : ∃ c n, name = c :: n ∧
    ∀ tail : Text, (∀ c ∈ tail.head?, isNameContinue c = false) →
      (∀ c ∈ tail.head?, isSpacing c = false) → first c (n ++ tail) = named name tail := by
  cases h with
  | @bare c n hs hn =>
    refine ⟨c, n, rfl, fun tail hc hsp => ?_⟩
    have htail : tail.takeWhile (fun c => isNameContinue c || isSpacing c) = [] := by
      cases tail with
      | nil => rfl
      | cons c tail => simp [hc c rfl, hsp c rfl]
    rw [first_word hs, word, nameTail_append hn (by simp [htail])]
    simp
  | @quoted body hb =>
    refine ⟨'"', body, rfl, fun tail _ _ => ?_⟩
    rw [first_quote, word, hb tail]
    simp

theorem IsName.scan_append {name tail : Text} (h : IsName name) (ht : EndsName tail) :
    scan (name ++ tail) = lexeme name (.ident name) :: scan tail := by
  obtain ⟨c, n, rfl, hf⟩ := h.first_eq
  have hd : tail.dropWhile isSpacing = tail := by
    cases tail with
    | nil => rfl
    | cons d tail => simp [ht.notSpacing d rfl]
  have hi : named (c :: n) tail = lexeme (c :: n) (.ident (c :: n)) := by
    refine named_ident fun inside hinside => ?_
    rw [hd] at hinside
    exact absurd (congrArg List.head? hinside) ht.notBracket
  have hfirst := (hf tail ht.notContinue ht.notSpacing).trans hi
  rw [List.cons_append, scan_cons (by rw [hfirst]; rfl), hfirst]

theorem IsName.scan_subscripted {name subscript tail : Text} (h : IsName name)
    (hs : ']' ∉ subscript) : scan (name ++ '[' :: subscript ++ [']'] ++ tail) =
      lexeme (name ++ '[' :: subscript ++ [']']) (.subscripted name subscript) :: scan tail := by
  obtain ⟨c, n, rfl, hf⟩ := h.first_eq
  have hn : named (c :: n) ('[' :: subscript ++ ']' :: tail) =
      lexeme (c :: n ++ '[' :: subscript ++ [']']) (.subscripted (c :: n) subscript) := by
    have h : named (c :: n) ([] ++ '[' :: subscript ++ ']' :: tail) = _ :=
      named_subscripted (by simp) hs
    simpa using h
  have hfirst := (hf ('[' :: subscript ++ ']' :: tail) (by simp; decide)
    (by simp; decide)).trans hn
  have htext : c :: n ++ '[' :: subscript ++ [']'] ++ tail =
      c :: ((n ++ '[' :: subscript ++ [']']) ++ tail) := by simp
  have hrest : (n ++ '[' :: subscript ++ [']']) ++ tail = n ++ ('[' :: subscript ++ ']' :: tail) := by
    simp
  rw [htext, scan_cons (by rw [hrest, hfirst]; rfl), hrest, hfirst]

/-! ### Keys -/

/-- The key of a name token that something can follow. -/
inductive IsKey : Text → Prop where
  | name {name : Text} : IsName name → IsKey name
  | element {name subscript : Text} : IsName name → ']' ∉ subscript →
      IsKey (Token.elementName name subscript)

/-- A key is read as a token with this key wherever a name may end. -/
theorem IsKey.scan_append {k : Text} (h : IsKey k) :
    ∃ token, token.key = some k ∧ (∀ name, token = .ident name → k = name) ∧
      ∀ tail, EndsName tail → scan (k ++ tail) = lexeme k token :: scan tail := by
  cases h with
  | name h => exact ⟨.ident k, rfl, fun _ h => (Token.ident.inj h), fun tail => h.scan_append⟩
  | @element name subscript h hs =>
    refine ⟨.subscripted name (Token.elements subscript), ?_, by simp, fun tail _ => ?_⟩
    · rw [Token.key, Token.elementName_eq, Token.elements_elements]
      rfl
    · rw [Token.elementName_eq]
      exact h.scan_subscripted (Token.not_mem_elements hs (by decide))

/-- A quoted name that is never closed. -/
def IsUnclosed (k : Text) : Prop := ∃ body, k = '"' :: body ∧ throughClosing '"' false body = body

theorem IsUnclosed.scan_eq {k : Text} (h : IsUnclosed k) : scan k = [lexeme k (.ident k)] := by
  obtain ⟨body, rfl, hb⟩ := h
  have hf : first '"' (body ++ []) = lexeme ('"' :: body) (.ident ('"' :: body)) := by
    rw [List.append_nil, first_quote, word, hb, List.drop_length]
    rfl
  have := scan_cons (show (first '"' (body ++ [])).source = '"' :: body by rw [hf]; rfl)
  rwa [hf, List.append_nil, scan_nil] at this

/-- The name, by itself, is one token, which stands for it. -/
def IsAlone (k : Text) : Prop := ∃ token, scan k = [lexeme k token] ∧ token.key = some k

theorem IsKey.isAlone {k : Text} (h : IsKey k) : IsAlone k := by
  obtain ⟨token, hkey, -, hscan⟩ := h.scan_append
  have hk := hscan [] endsName_nil
  rw [List.append_nil, scan_nil] at hk
  exact ⟨token, hk, hkey⟩

theorem IsUnclosed.isAlone {k : Text} (h : IsUnclosed k) : IsAlone k := ⟨.ident k, h.scan_eq, rfl⟩

/-- What the first piece of a text can be. -/
inductive IsFirst (c : Char) (rest : Text) : Piece → Prop where
  | comment {s : Text} : c = '\x7b' → IsFirst c rest (gap s)
  | blanks {s : Text} : (∀ x ∈ s, isBlank x = true) → IsFirst c rest (gap s)
  | quoted : c = '"' → IsFirst c rest (word c (throughClosing '"' false) rest)
  | bare : isNameStart c = true → IsFirst c rest (word c nameTail rest)
  | paren : c = '(' → IsFirst c rest (lexeme ['('] .lparen)
  | literal : c = '\'' → IsFirst c rest (singleQuoted rest)
  | other {s : Text} {token : Token} : token.key = none → token ≠ .lparen →
      (∀ contents, token ≠ .literal contents) → IsFirst c rest (lexeme s token)

theorem isFirst (c : Char) (rest : Text) : IsFirst c rest (first c rest) := by
  by_cases hc : c ∈ decisive
  · simp only [decisive, List.mem_cons, List.not_mem_nil, or_false] at hc
    rcases hc with rfl | rfl | rfl | rfl | rfl | rfl | rfl | rfl | rfl
    case inl => exact .comment rfl
    case inr.inl => exact .paren rfl
    case inr.inr.inr.inr.inr.inr.inl => exact .quoted rfl
    case inr.inr.inr.inr.inr.inr.inr.inl => exact .literal rfl
    case inr.inr.inr.inr.inr.inr.inr.inr =>
      by_cases hk : OpensKeyword rest
      · rw [first, afterColon_keyword hk]
        exact .other rfl (by simp) (by simp)
      · rw [first, afterColon_operator hk]
        split <;> exact .other rfl (by simp) (by simp)
    all_goals exact .other rfl (by simp) (by simp)
  · by_cases hn : isNameStart c = true
    · rw [first_word hn]
      exact .bare hn
    · rw [first_plain hc, firstPlain]
      split
      next hb => exact .blanks (List.forall_mem_cons.2 ⟨hb, fun x => List.mem_takeWhile_imp⟩)
      next =>
        split
        · exact .other rfl (by simp) (by simp)
        · exact .other rfl (by simp) (by simp)

/-- Only a name has a key. -/
theorem word_of_key {c : Char} {rest : Text} {k : Text}
    (h : (first c rest).token?.bind Token.key = some k) :
    (c = '"' ∧ first c rest = word c (throughClosing '"' false) rest) ∨
      (isNameStart c = true ∧ first c rest = word c nameTail rest) := by
  have hf := isFirst c rest
  generalize first c rest = p at h hf
  cases hf with
  | quoted hc => exact .inl ⟨hc, rfl⟩
  | bare hc => exact .inr ⟨hc, rfl⟩
  | comment | blanks | paren | literal => simp [singleQuoted, token?, Token.key] at h
  | other hk => simp [token?, hk] at h

theorem word_ne_gap (c : Char) (f : Text → Text) (rest s : Text) : word c f rest ≠ gap s := by
  rcases named_cases (c :: f rest) (rest.drop (f rest).length) with ⟨_, _, -, -, hn⟩ | ⟨-, hn⟩ <;>
    simp [word, hn]

theorem word_eq_lexeme {c : Char} {f : Text → Text} {rest s : Text} {token : Token}
    (h : word c f rest = lexeme s token) :
    token = .ident (c :: f rest) ∧ s = c :: f rest ∨
      ∃ subscript, token = .subscripted (c :: f rest) subscript := by
  rcases named_cases (c :: f rest) (rest.drop (f rest).length) with ⟨_, _, -, -, hn⟩ | ⟨-, hn⟩ <;>
    rw [word, hn, lexeme.injEq] at h
  · exact .inr ⟨_, h.2.symm⟩
  · exact .inl ⟨h.2.symm, h.1.symm⟩

/-- A name is a token by itself. It is quoted, or it is bare. -/
theorem ident_of_first {c : Char} {rest s name : Text} (h : first c rest = lexeme s (.ident name)) :
    s = name ∧ (c = '"' ∧ name = c :: throughClosing '"' false rest ∨
      isNameStart c = true ∧ name = c :: nameTail rest) := by
  have hword {f : Text → Text} (hw : first c rest = word c f rest) :
      s = name ∧ name = c :: f rest := by
    rw [hw] at h
    rcases word_eq_lexeme h with ⟨htoken, hs⟩ | ⟨_, htoken⟩
    · have hname := Token.ident.inj htoken
      exact ⟨hs.trans hname.symm, hname⟩
    · simp at htoken
  rcases word_of_key (by rw [h]; rfl) with ⟨hc, hw⟩ | ⟨hc, hw⟩
  · obtain ⟨hs, hname⟩ := hword hw
    exact ⟨hs, .inl ⟨hc, hname⟩⟩
  · obtain ⟨hs, hname⟩ := hword hw
    exact ⟨hs, .inr ⟨hc, hname⟩⟩

/-- A name token that something follows can be read in any place where a name may end. -/
theorem isName_of_scan {t s name : Text} {ps qs : List Piece}
    (h : scan t = ps ++ lexeme s (.ident name) :: qs) (hq : qs ≠ []) : s = name ∧ IsName name := by
  obtain ⟨c, s', more, hfirst, hs, rfl⟩ := exists_first h
  rw [← hfirst] at hs
  obtain rfl : s = c :: s' := hs
  obtain ⟨rfl, ⟨rfl, hname⟩ | ⟨hc, hname⟩⟩ := ident_of_first hfirst.symm
  · refine ⟨rfl, .quoted ?_⟩
    have hbody : s' = throughClosing '"' false (s' ++ more) := (List.cons.inj hname).2
    have hclosed : s' ++ more = throughClosing '"' false (s' ++ more) ++ more := by
      rw [← hbody]
    have hmore : more ≠ [] := fun hn => hq (by rw [hn, scan_nil])
    rw [hbody]
    exact closes_of_followed hclosed hmore
  · rw [hname]
    exact ⟨rfl, .bare hc (nameTail_nameTail _)⟩

/-- The key of a piece, unless the piece is a quoted name that runs to the end of the text. -/
theorem isKey_of_first {c : Char} {s more k : Text}
    (hs : (first c (s ++ more)).source = c :: s)
    (h : (first c (s ++ more)).token?.bind Token.key = some k) :
    IsKey k ∨ (more = [] ∧ k = c :: s ∧ IsUnclosed k) := by
  generalize hr : s ++ more = rest at hs h
  have hword (f : Text → Text) (hp : f rest <+: rest) (hw : first c rest = word c f rest)
      (hname : ∀ tail, rest = f rest ++ tail → tail ≠ [] → IsName (c :: f rest)) :
      IsKey k ∨ (more = [] ∧ k = c :: s ∧ rest = f rest) := by
    obtain ⟨tail, ht⟩ := hp
    have hdrop : rest.drop (f rest).length = tail := by
      have hd := congrArg (List.drop (f rest).length) ht
      rw [List.drop_left] at hd
      exact hd.symm
    rw [hw, word, hdrop] at h hs
    rcases named_cases (c :: f rest) tail with ⟨subscript, after, htail, hsub, hn⟩ | ⟨-, hn⟩
    · refine .inl ?_
      rw [hn] at h
      obtain rfl : Token.elementName (c :: f rest) subscript = k := by
        simpa [token?, Token.key] using h
      refine .element (hname tail ht.symm ?_) hsub
      rw [htail]
      simp
    · rw [hn] at h hs
      obtain rfl : c :: f rest = k := by simpa [token?, Token.key] using h
      obtain rfl : f rest = s := by simpa [source] using hs
      by_cases hmore : more = []
      · refine .inr ⟨hmore, rfl, ?_⟩
        rw [hmore, List.append_nil] at hr
        exact hr.symm
      · exact .inl (.name (hname more hr.symm hmore))
  rcases word_of_key h with ⟨rfl, hw⟩ | ⟨hc, hw⟩
  · refine (hword _ (prefix_throughClosing _ _ _) hw fun tail ht hn => ?_).imp_right ?_
    · exact .quoted (closes_of_followed ht hn)
    · rintro ⟨rfl, rfl, hrest⟩
      refine ⟨rfl, rfl, s, rfl, ?_⟩
      rw [List.append_nil] at hr
      rw [hr]
      exact hrest.symm
  · refine .inl ?_
    have hbare := IsName.bare hc (nameTail_nameTail rest)
    rcases hword _ (prefix_nameTail rest) hw fun _ _ _ => hbare with hk | ⟨rfl, rfl, hrest⟩
    · exact hk
    · rw [List.append_nil] at hr
      rw [hr, hrest]
      exact .name hbare

end Piece

end StockFlow
