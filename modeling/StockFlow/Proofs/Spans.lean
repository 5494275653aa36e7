import StockFlow.Proofs.LeadingCalls

/-! Where the tokens of a text stand. Each token is a stretch of the text, the stretches follow one
another, and what is left of the text before, between and after them are blanks and comments. What
ends a comment or a quoted name is said without the scanner: the first delimiter that no backslash
escapes, where two backslashes in a row escape nothing. -/
namespace StockFlow

open Unicode (isBlank)

/-! ### Escapes -/

namespace Text

/-- Whether what follows the text is escaped: an odd number of backslashes stand at its end. -/
def escapes (t : Text) : Bool := (t.rtakeWhile (· == '\\')).length % 2 == 1

theorem escapes_concat (t : Text) (c : Char) :
    escapes (t ++ [c]) = (c == '\\' && !escapes t) := by
  by_cases hc : c = '\\'
  · subst hc
    have hlength : ((t ++ ['\\']).rtakeWhile (· == '\\')).length =
        (t.rtakeWhile (· == '\\')).length + 1 := by
      simp [List.rtakeWhile]
    rw [escapes, escapes, hlength, Bool.eq_iff_iff]
    simp
    omega
  · simp [escapes, List.rtakeWhile, hc]

/-- Every delimiter in the text, which stands after `before`, is escaped. -/
def NeverClosed (delimiter : Char) (before t : Text) : Prop :=
  ∀ u v, t = u ++ delimiter :: v → escapes (before ++ u) = true

/-- The text ends with the only delimiter in it that is not escaped. -/
def ClosedBy (delimiter : Char) (before t : Text) : Prop :=
  ∃ inner, t = inner ++ [delimiter] ∧ NeverClosed delimiter before inner ∧
    escapes (before ++ inner) = false

variable {delimiter c : Char} {before t : Text}

theorem neverClosed_nil : NeverClosed delimiter before [] := by simp [NeverClosed]

theorem neverClosed_cons (hc : c = delimiter → escapes before = true)
    (h : NeverClosed delimiter (before ++ [c]) t) : NeverClosed delimiter before (c :: t) := by
  intro u v heq
  cases u with
  | nil =>
    obtain ⟨rfl, -⟩ := List.cons.inj heq
    simpa using hc rfl
  | cons d u =>
    obtain ⟨rfl, rfl⟩ := List.cons.inj heq
    simpa using h u v rfl

theorem closedBy_cons (hc : c = delimiter → escapes before = true)
    (h : ClosedBy delimiter (before ++ [c]) t) : ClosedBy delimiter before (c :: t) := by
  obtain ⟨inner, rfl, hopen, hends⟩ := h
  exact ⟨c :: inner, rfl, neverClosed_cons hc hopen, by simpa using hends⟩

theorem byteSize_pos (h : t ≠ []) : 0 < byteSize t := by
  obtain ⟨c, rest, rfl⟩ := List.exists_cons_of_ne_nil h
  exact Nat.add_pos_left c.utf8Size_pos _

/-- The text has the stretch `s` between two byte offsets, and `after` behind it. -/
def HasStretch (t : Text) (start stop : Nat) (s after : Text) : Prop :=
  ∃ before, t = before ++ s ++ after ∧ byteSize before = start ∧ byteSize (before ++ s) = stop

end Text

/-- The name that a token holds, a quoted one with its quotes. -/
def Token.name? : Token → Option Text
  | ident name | subscripted name _ => some name
  | _ => none

namespace Piece

open Text (escapes NeverClosed ClosedBy)

/-- What is taken as quoted ends with the first delimiter that is not escaped, or it is all of the
text and there is no such delimiter. -/
theorem closedBy_or_neverClosed {delimiter : Char} (hd : delimiter ≠ '\\') (before t : Text) :
    ClosedBy delimiter before (throughClosing delimiter (escapes before) t) ∨
      throughClosing delimiter (escapes before) t = t ∧ NeverClosed delimiter before t := by
  induction t generalizing before with
  | nil => exact .inr ⟨rfl, Text.neverClosed_nil⟩
  | cons c rest ih =>
    have goes (hc : c = delimiter → escapes before = true)
        (h : throughClosing delimiter (escapes before) (c :: rest) =
          c :: throughClosing delimiter (escapes (before ++ [c])) rest) :
        ClosedBy delimiter before (throughClosing delimiter (escapes before) (c :: rest)) ∨
          throughClosing delimiter (escapes before) (c :: rest) = c :: rest ∧
            NeverClosed delimiter before (c :: rest) := by
      rw [h]
      exact (ih (before ++ [c])).imp (Text.closedBy_cons hc) fun ⟨htake, hopen⟩ =>
        ⟨congrArg (List.cons c) htake, Text.neverClosed_cons hc hopen⟩
    rw [Text.escapes_concat] at goes
    cases he : escapes before with
    | true =>
      rw [he] at goes
      exact goes (fun _ => rfl) (by simp [throughClosing])
    | false =>
      rw [he] at goes
      by_cases hslash : c = '\\'
      · exact goes (fun hc => absurd (hc.symm.trans hslash) hd) (by simp [throughClosing, hslash])
      · have hback : (c == '\\') = false := by simpa using hslash
        by_cases hc : c = delimiter
        · refine .inl ⟨[], ?_, Text.neverClosed_nil, by simpa using he⟩
          simp [throughClosing, hc, hd]
        · exact goes (fun h => absurd h hc) (by simp [throughClosing, hslash, hback, hc])

/-- A scanner starts right after the opening quote or brace. -/
theorem closedBy_or_neverClosed_start {delimiter : Char} (hd : delimiter ≠ '\\') (t : Text) :
    ClosedBy delimiter [] (throughClosing delimiter false t) ∨
      throughClosing delimiter false t = t ∧ NeverClosed delimiter [] t :=
  closedBy_or_neverClosed hd [] t

/-! ### Gaps -/

/-- Blanks and comments before the text `after`. A comment ends with the first closing brace that is
not escaped; one that has no such brace is the end of the text. -/
inductive Skipped : Text → Text → Prop where
  | nil (after : Text) : Skipped [] after
  | blank {c : Char} {s after : Text} : isBlank c = true → Skipped s after → Skipped (c :: s) after
  | comment {body s after : Text} : ClosedBy '}' [] body → Skipped s after →
      Skipped ('{' :: (body ++ s)) after
  | unended {body : Text} : NeverClosed '}' [] body → Skipped ('{' :: body) []

theorem Skipped.append_blanks {blanks s after : Text} (hb : ∀ c ∈ blanks, isBlank c = true)
    (h : Skipped s after) : Skipped (blanks ++ s) after := by
  induction blanks with
  | nil => exact h
  | cons c blanks ih =>
    obtain ⟨hc, hb⟩ := List.forall_mem_cons.1 hb
    exact .blank hc (ih hb)

/-- A gap at the start of a text, before others. -/
theorem skipped_of_first {c : Char} {g s after : Text}
    (hg : first c (g ++ (s ++ after)) = gap (c :: g)) (h : Skipped s after) :
    Skipped (c :: g ++ s) after := by
  rcases blank_of_gap hg with rfl | hb
  · have htake : throughClosing '}' false (g ++ (s ++ after)) = g :=
      (List.cons.inj (gap.inj hg)).2
    rcases closedBy_or_neverClosed_start (by decide : '}' ≠ '\\') (g ++ (s ++ after)) with
      hclosed | ⟨hall, hopen⟩
    · rw [htake] at hclosed
      exact .comment hclosed h
    · have hnil : s ++ after = [] := by simpa using hall.symm.trans htake
      obtain ⟨rfl, rfl⟩ := List.append_eq_nil_iff.1 hnil
      rw [List.append_nil, List.append_nil] at hopen
      rw [List.append_nil]
      exact .unended hopen
  · exact h.append_blanks hb

theorem skipped_of_scan {t : Text} {gaps rest : List Piece} (h : scan t = gaps ++ rest)
    (hgaps : gaps.filterMap token? = []) :
    Skipped (gaps.flatMap source) (rest.flatMap source) := by
  induction gaps generalizing t with
  | nil => exact .nil _
  | cons p gaps ih =>
    rcases scan_cases t with ⟨rfl, hnil⟩ | ⟨c, s, more, rfl, hs, hscan⟩
    · simp [h] at hnil
    · rw [h, List.cons_append] at hscan
      obtain ⟨rfl, hmore⟩ := List.cons.inj hscan
      have hsource : more = gaps.flatMap source ++ rest.flatMap source := by
        rw [← List.flatMap_append, hmore, scan_source]
      cases hp : first c (s ++ more) with
      | lexeme s' token => simp [hp, token?] at hgaps
      | gap s' =>
        rw [hp] at hs hgaps
        obtain rfl : s' = c :: s := hs
        rw [hsource] at hp
        rw [List.flatMap_cons]
        exact skipped_of_first hp (ih hmore.symm hgaps)

/-! ### Names -/

/-- A name is quoted or bare, and it stands at the start of its token's source. -/
theorem name_of_first {c : Char} {rest s name : Text} {token : Token}
    (h : first c rest = lexeme s token) (hname : token.name? = some name) : name <+: s ∧
      (c = '"' ∧ name = '"' :: throughClosing '"' false rest ∨
        isNameStart c = true ∧ name = c :: nameTail rest) := by
  have hkey : ∃ k, (first c rest).token?.bind Token.key = some k := by
    rw [h]
    cases token <;> simp [Token.name?] at hname <;> exact ⟨_, rfl⟩
  have hword {f : Text → Text} (hw : first c rest = word c f rest) :
      name <+: s ∧ name = c :: f rest := by
    rw [hw] at h
    obtain ⟨more, hmore, -⟩ := named_source (c :: f rest) (rest.drop (f rest).length)
    obtain rfl : s = c :: f rest ++ more := by rw [← hmore, ← word, h]; rfl
    obtain rfl : c :: f rest = name := by
      rcases word_eq_lexeme h with ⟨rfl, -⟩ | ⟨_, rfl⟩ <;> exact Option.some.inj hname
    exact ⟨List.prefix_append _ _, rfl⟩
  obtain ⟨k, hkey⟩ := hkey
  rcases word_of_key hkey with ⟨rfl, hw⟩ | ⟨hc, hw⟩
  · exact (hword hw).imp_right fun hname => .inl ⟨rfl, hname⟩
  · exact (hword hw).imp_right fun hname => .inr ⟨hc, hname⟩

/-- A name ends with no blank, or it is quoted and has no end before that of the text. -/
theorem last_of_name {c : Char} {s more s' name : Text} {token : Token}
    (hs : (first c (s ++ more)).source = c :: s) (h : first c (s ++ more) = lexeme s' token)
    (hname : token.name? = some name) :
    (∀ d ∈ name.getLast?, isBlank d = false) ∨
      more = [] ∧ ∃ body, name = '"' :: body ∧ NeverClosed '"' [] body := by
  rw [h] at hs
  obtain rfl : s' = c :: s := hs
  obtain ⟨hstart, ⟨rfl, rfl⟩ | ⟨hc, rfl⟩⟩ := name_of_first h hname
  · rcases closedBy_or_neverClosed_start (by decide : '"' ≠ '\\') (s ++ more) with
      ⟨inner, hinner, -⟩ | ⟨hall, hopen⟩
    · refine .inl fun d hd => ?_
      rw [hinner, ← List.cons_append, List.getLast?_concat] at hd
      obtain rfl := Option.some.inj hd
      decide
    · refine .inr ⟨?_, s ++ more, by rw [hall], hopen⟩
      rw [hall] at hstart
      have hlength := hstart.length_le
      rw [List.length_cons, List.length_cons, List.length_append] at hlength
      exact List.eq_nil_of_length_eq_zero (by omega)
  · refine .inl (last_cons ?_ (last_nameTail _))
    by_contra hb
    simp [not_isNameStart_of_isBlank (by simpa using hb)] at hc

end Piece

namespace Token

open Piece
open Text (HasStretch NeverClosed)

/-! ### Places -/

/-- Neighbouring pieces are a stretch of the text. -/
theorem hasStretch_of_scan {t : Text} {ps qs rs : List Piece} (h : scan t = ps ++ qs ++ rs) :
    HasStretch t (Text.byteSize (ps.flatMap source)) (Text.byteSize ((ps ++ qs).flatMap source))
      (qs.flatMap source) (rs.flatMap source) := by
  refine ⟨ps.flatMap source, ?_, rfl, by rw [List.flatMap_append]⟩
  rw [← scan_source t, h, List.flatMap_append, List.flatMap_append]

/-- The located token is a piece among the others, and `later` are the tokens after it. -/
def IsPieceOf (ps : List Piece) (offset : Nat) (l : Located) (later : List Located) : Prop :=
  ∃ qs s rest, ps = qs ++ [lexeme s l.token] ++ rest ∧
    l.start = offset + Text.byteSize (qs.flatMap source) ∧
    l.stop = offset + Text.byteSize ((qs ++ [lexeme s l.token]).flatMap source) ∧
    locate l.stop rest = later

theorem IsPieceOf.cons {ps : List Piece} {offset : Nat} {l : Located} {later : List Located}
    {p : Piece} (h : IsPieceOf ps (offset + p.source.byteSize) l later) :
    IsPieceOf (p :: ps) offset l later := by
  obtain ⟨qs, s, rest, rfl, hstart, hstop, hlater⟩ := h
  exact ⟨p :: qs, s, rest, rfl, by simp [hstart, Nat.add_assoc], by simp [hstop, Nat.add_assoc],
    hlater⟩

theorem isPieceOf_of_locate {ps : List Piece} {offset : Nat} {earlier later : List Located}
    {l : Located} (h : locate offset ps = earlier ++ l :: later) : IsPieceOf ps offset l later := by
  induction ps generalizing offset earlier with
  | nil => simp [locate] at h
  | cons p ps ih =>
    cases p with
    | gap s => exact (ih h).cons (p := .gap s)
    | lexeme s token =>
      cases earlier with
      | nil =>
        obtain ⟨rfl, hlater⟩ := List.cons.inj h
        exact ⟨[], s, ps, rfl, by simp [Text.byteSize], by simp [source], hlater⟩
      | cons first earlier => exact (ih (List.cons.inj h).2).cons (p := .lexeme s token)

theorem exists_lexeme {t : Text} {earlier later : List Located} {l : Located}
    (h : located t = earlier ++ l :: later) : ∃ qs s rest,
      scan t = qs ++ [lexeme s l.token] ++ rest ∧ l.start = Text.byteSize (qs.flatMap source) ∧
      l.stop = Text.byteSize ((qs ++ [lexeme s l.token]).flatMap source) ∧
      locate l.stop rest = later := by
  obtain ⟨qs, s, rest, hscan, hstart, hstop, hlater⟩ := isPieceOf_of_locate h
  exact ⟨qs, s, rest, hscan, by simpa using hstart, by simpa using hstop, hlater⟩

/-- A token of a text is one of its pieces. -/
theorem exists_piece {t : Text} {l : Located} (hl : l ∈ located t) : ∃ qs s rest,
    scan t = qs ++ lexeme s l.token :: rest ∧ l.start = Text.byteSize (qs.flatMap source) ∧
      l.stop = l.start + s.byteSize := by
  obtain ⟨earlier, later, h⟩ := List.append_of_mem hl
  obtain ⟨qs, s, rest, hscan, hstart, hstop, -⟩ := exists_lexeme h
  exact ⟨qs, s, rest, hscan.trans (List.append_assoc ..), hstart, by simp [hstart, hstop, source]⟩

theorem pairwise_locate (offset : Nat) (ps : List Piece) :
    (locate offset ps).Pairwise fun l m => l.stop ≤ m.start := by
  induction ps generalizing offset with
  | nil => exact .nil
  | cons p ps ih =>
    cases p with
    | gap s => exact ih _
    | lexeme s token =>
      refine .cons (fun m hm => ?_) (ih _)
      obtain ⟨earlier, later, h⟩ := List.append_of_mem hm
      obtain ⟨qs, s', rest, -, hstart, -⟩ := isPieceOf_of_locate h
      exact hstart ▸ Nat.le_add_right _ _

theorem exists_gaps (offset : Nat) (ps : List Piece) : ∃ gaps rest, ps = gaps ++ rest ∧
    gaps.filterMap token? = [] ∧ ((locate offset ps).head?.elim
      (offset + Text.byteSize (ps.flatMap source)) Located.start) =
        offset + Text.byteSize (gaps.flatMap source) := by
  induction ps generalizing offset with
  | nil => exact ⟨[], [], rfl, rfl, rfl⟩
  | cons p ps ih =>
    cases p with
    | gap s =>
      obtain ⟨gaps, rest, rfl, hgaps, hstart⟩ := ih (offset + s.byteSize)
      refine ⟨.gap s :: gaps, rest, rfl, hgaps, ?_⟩
      simpa [locate, source, Nat.add_assoc] using hstart
    | lexeme s token => exact ⟨[], _, rfl, rfl, by simp [locate, Text.byteSize]⟩

/-- What stands between some of the pieces and the first token after them. -/
theorem exists_skipped {t : Text} {ps rest : List Piece} {start : Nat} (h : scan t = ps ++ rest)
    (hstart : start = Text.byteSize (ps.flatMap source)) : ∃ s after,
      HasStretch t start ((locate start rest).head?.elim t.byteSize Located.start) s after ∧
        Skipped s after := by
  obtain ⟨gaps, more, rfl, hgaps, hhead⟩ := exists_gaps start rest
  have hsize : t.byteSize = start + Text.byteSize ((gaps ++ more).flatMap source) := by
    rw [hstart, ← Text.byteSize_append, ← List.flatMap_append, ← h, scan_source]
  rw [← hsize, hstart, ← Text.byteSize_append, ← List.flatMap_append] at hhead
  refine ⟨_, _, ?_, skipped_of_scan (scan_suffix h) hgaps⟩
  rw [hstart, hhead]
  exact hasStretch_of_scan (h.trans (List.append_assoc ps gaps more).symm)

/-- The tokens are stretches of the text, one after another, and all else is blanks and comments. -/
structure Accounts (t : Text) (tokens : List Located) : Prop where
  /-- A token is a stretch of the text that by itself is read as this one token. -/
  stretch : ∀ l ∈ tokens, l.start < l.stop ∧ l.stop ≤ t.byteSize ∧
    ∃ s after, HasStretch t l.start l.stop s after ∧ located s = [⟨0, l.token, s.byteSize⟩]
  ordered : tokens.Pairwise fun l m => l.stop ≤ m.start
  /-- Before, between and after the tokens nothing but blanks and comments is left. -/
  skipped : ∀ earlier later, tokens = earlier ++ later → ∃ s after,
    HasStretch t (earlier.getLast?.elim 0 Located.stop) (later.head?.elim t.byteSize Located.start)
      s after ∧ Skipped s after
  /-- No name ends with a blank, unless it is quoted and never closed. -/
  named : ∀ l ∈ tokens, ∀ name ∈ l.token.name?, (∀ c ∈ name.getLast?, isBlank c = false) ∨
    l.stop = t.byteSize ∧ ∃ body, name = '"' :: body ∧ NeverClosed '"' [] body

section Located

variable {t : Text} {l : Located}

theorem stretch_of_mem (hl : l ∈ located t) : l.start < l.stop ∧ l.stop ≤ t.byteSize ∧
    ∃ s after, HasStretch t l.start l.stop s after ∧ located s = [⟨0, l.token, s.byteSize⟩] := by
  obtain ⟨qs, s, rest, hscan, hstart, hstop⟩ := exists_piece hl
  have hpos : 0 < s.byteSize := by
    obtain ⟨c, s', more, hfirst, hs, -⟩ := exists_first hscan
    rw [← hfirst] at hs
    obtain rfl : s = c :: s' := hs
    exact Text.byteSize_pos (List.cons_ne_nil c s')
  have hsize : t.byteSize = l.stop + Text.byteSize (rest.flatMap source) := by
    rw [← scan_source t, hscan, hstop, hstart]
    simp [source, Nat.add_assoc]
  have hsplit : scan t = qs ++ [lexeme s l.token] ++ rest := by simpa using hscan
  have hstretch := hasStretch_of_scan hsplit
  have halone : scan s = [lexeme s l.token] := by simpa [source] using scan_stretch hsplit
  rw [List.flatMap_append, Text.byteSize_append, ← hstart, List.flatMap_singleton] at hstretch
  exact ⟨by omega, by omega, s, _, hstop ▸ hstretch, by simp [located, halone, locate]⟩

theorem skipped_between {earlier later : List Located} (h : located t = earlier ++ later) :
    ∃ s after, HasStretch t (earlier.getLast?.elim 0 Located.stop)
      (later.head?.elim t.byteSize Located.start) s after ∧ Skipped s after := by
  rcases List.eq_nil_or_concat' earlier with rfl | ⟨earlier, l, rfl⟩
  · have hscan : scan t = [] ++ scan t := rfl
    have hskipped := exists_skipped hscan rfl
    have hlater : locate 0 (scan t) = later := h
    simpa [Text.byteSize, hlater] using hskipped
  · rw [List.append_assoc, List.singleton_append] at h
    obtain ⟨qs, s, rest, hscan, -, hstop, rfl⟩ := exists_lexeme h
    rw [List.getLast?_concat]
    exact exists_skipped hscan hstop

theorem last_of_mem (hl : l ∈ located t) {name : Text} (hname : l.token.name? = some name) :
    (∀ c ∈ name.getLast?, isBlank c = false) ∨
      l.stop = t.byteSize ∧ ∃ body, name = '"' :: body ∧ NeverClosed '"' [] body := by
  obtain ⟨qs, s, rest, hscan, hstart, hstop⟩ := exists_piece hl
  obtain ⟨c, s', more, hfirst, hs, hrest⟩ := exists_first hscan
  refine (last_of_name hs hfirst.symm hname).imp_right fun ⟨hmore, hbody⟩ => ⟨?_, hbody⟩
  obtain rfl : rest = [] := by rw [hrest, hmore, scan_nil]
  rw [hstop, hstart, ← scan_source t, hscan]
  simp [source]

end Located

/-- The tokens of a text account for each of its bytes. -/
theorem located_accounts (t : Text) : Accounts t (located t) where
  stretch _ hl := stretch_of_mem hl
  ordered := pairwise_locate 0 (scan t)
  skipped _ _ h := skipped_between h
  named _ hl _ hname := last_of_mem hl hname

end Token

end StockFlow
