import Mathlib.Data.List.Infix
import StockFlow.Proofs.Layout
import StockFlow.Proofs.Spans

/-! Line breaks and quoted names. What breaks lines has a reader of quotes of its own, which knows
nothing of literals, comments and subscripts. As long as every double quote stands in a name, it is in
step with the tokens: it is outside of quotes where a token starts and inside of them until a quoted
name ends, so no line ends inside of such a name. A double quote that stands elsewhere turns it
around. -/
namespace StockFlow

open Piece (throughClosing scan source)

/-! ### Line breaks -/

namespace Line

/-- A line of the wrapped text ends after its start `before`, and others follow. -/
def EndsLine (width : Nat) (first other t before : Text) : Prop :=
  ∃ p ps q qs, wrap width first other t = (first ++ p) :: (ps ++ q :: qs).map (other ++ ·) ∧
    before = Text.joinWith " " (p :: ps)

/-- Every line but the last one ends so. -/
theorem exists_endsLine {width : Nat} {first other t line next : Text} {lines more : List Text}
    (h : wrap width first other t = line :: (lines ++ next :: more)) : ∃ p ps,
      line = first ++ p ∧ lines = ps.map (other ++ ·) ∧
        EndsLine width first other t (Text.joinWith " " (p :: ps)) := by
  obtain ⟨p, pieces, hwrap, -⟩ := wrap_pieces width first other t
  obtain ⟨rfl, hmore⟩ := List.cons.inj (h.symm.trans hwrap)
  obtain ⟨ps, rest, rfl, rfl, hrest⟩ := List.map_eq_append_iff.1 hmore.symm
  obtain ⟨q, qs, rfl, -, -⟩ := List.map_eq_cons_iff.1 hrest
  exact ⟨p, ps, rfl, rfl, p, ps, q, qs, hwrap, rfl⟩

theorem endsLine_head {width : Nat} {first other t p next : Text} {more : List Text}
    (h : wrap width first other t = (first ++ p) :: next :: more) :
    EndsLine width first other t p := by
  rw [← List.nil_append (next :: more)] at h
  obtain ⟨p', ps, hp, hps, hends⟩ := exists_endsLine h
  obtain rfl := List.append_cancel_left hp
  obtain rfl := List.map_eq_nil_iff.1 hps.symm
  rwa [Text.joinWith, List.intercalate_singleton] at hends

theorem Laid.mayBreak {width : Nat} {other before start t p q : Text} {ps qs lines : List Text}
    (h : Laid width other before start t lines)
    (hlines : lines = (start ++ p) :: (ps ++ q :: qs).map (other ++ ·)) :
    MayBreak before t (Text.joinWith " " (p :: ps)) := by
  induction h generalizing p ps with
  | last => simp at hlines
  | @cons before start p' rest lines hbreak _ _ _ ih =>
    obtain ⟨hp, htail⟩ := List.cons.inj hlines
    obtain rfl := List.append_cancel_left hp
    cases ps with
    | nil => simpa [Text.joinWith] using hbreak
    | cons p ps =>
      have hrest : MayBreak (before ++ p' ++ [' ']) rest (Text.joinWith " " (p :: ps)) := ih htail
      have hjoined : Text.joinWith " " (p' :: p :: ps) =
          p' ++ ' ' :: Text.joinWith " " (p :: ps) := by
        rw [Text.joinWith, List.intercalate_cons_cons, List.append_assoc]
        rfl
      rw [hjoined, MayBreak.append_iff, MayBreak.cons_iff]
      exact hrest

theorem EndsLine.mayBreak {width : Nat} {first other t before : Text}
    (h : EndsLine width first other t before) : MayBreak [] t before := by
  obtain ⟨p, ps, q, qs, hwrap, rfl⟩ := h
  exact (laid_wrap width first other t).mayBreak hwrap

end Line

namespace Text

variable {t u v : Text}

theorem byteSize_le_of_starts (h : u <+: v) : byteSize u ≤ byteSize v := by
  obtain ⟨more, rfl⟩ := h
  simp

/-- Of two starts of one text, the one that has fewer bytes is a start of the other. -/
theorem exists_append_of_byteSize_lt (hu : u <+: t) (hv : v <+: t) (h : byteSize u < byteSize v) :
    ∃ c rest, v = u ++ c :: rest := by
  rcases List.prefix_or_prefix_of_prefix hu hv with ⟨more, rfl⟩ | hvu
  · cases more with
    | nil => simp at h
    | cons c rest => exact ⟨c, rest, rfl⟩
  · exact absurd (byteSize_le_of_starts hvu) (Nat.not_le_of_lt h)

end Text

/-! ### Two readers of quotes -/

namespace Piece

/-- Where the reader of quotes stands inside of a quoted name. -/
def quoting (escaped : Bool) : Quoting := if escaped then .escaped else .inside

theorem quoting_ne_outside (escaped : Bool) : quoting escaped ≠ .outside := by
  cases escaped <;> simp [quoting]

/-- A character ends the quoted text for both readers, or they both go on in step. -/
theorem quoting_cons (escaped : Bool) (c : Char) :
    ((∀ t, throughClosing '"' escaped (c :: t) = [c]) ∧ (quoting escaped).step c = .outside) ∨
      ∃ escaped', (∀ t, throughClosing '"' escaped (c :: t) = c :: throughClosing '"' escaped' t) ∧
        (quoting escaped).step c = quoting escaped' := by
  cases escaped with
  | true => exact .inr ⟨false, fun t => rfl, rfl⟩
  | false =>
    by_cases hslash : c = '\\'
    · exact .inr ⟨true, fun t => by simp [throughClosing, hslash],
        by simp [quoting, Quoting.step, hslash]⟩
    · by_cases hc : c = '"'
      · exact .inl ⟨fun t => by simp [throughClosing, hc], by simp [quoting, Quoting.step, hc]⟩
      · exact .inr ⟨false, fun t => by simp [throughClosing, hslash, hc],
          by simp [quoting, Quoting.step, hslash, hc]⟩

/-- Before the end of a quoted text the reader is not outside. -/
theorem foldl_quoting_ne {escaped : Bool} {t u v : Text} {c : Char}
    (h : throughClosing '"' escaped t = u ++ c :: v) :
    u.foldl Quoting.step (quoting escaped) ≠ .outside := by
  induction t generalizing escaped u with
  | nil => simp [throughClosing] at h
  | cons d t ih =>
    cases u with
    | nil => exact quoting_ne_outside escaped
    | cons e u =>
      rcases quoting_cons escaped d with ⟨hends, -⟩ | ⟨escaped', hgoes, hstep⟩
      · simp [hends] at h
      · rw [hgoes, List.cons_append, List.cons.injEq] at h
        rw [List.foldl_cons, ← h.1, hstep]
        exact ih h.2

/-- At the end of a quoted text that something follows the reader is outside. -/
theorem foldl_quoting_eq {escaped : Bool} {t tail : Text}
    (h : t = throughClosing '"' escaped t ++ tail) (htail : tail ≠ []) :
    (throughClosing '"' escaped t).foldl Quoting.step (quoting escaped) = .outside := by
  induction t generalizing escaped with
  | nil => exact absurd h.symm htail
  | cons d t ih =>
    rcases quoting_cons escaped d with ⟨hends, hstep⟩ | ⟨escaped', hgoes, hstep⟩
    · rw [hends, List.foldl_cons, hstep]
      rfl
    · rw [hgoes] at h ⊢
      rw [List.foldl_cons, hstep]
      exact ih (List.cons.inj h).2

theorem foldl_outside {t : Text} (h : '"' ∉ t) :
    t.foldl Quoting.step .outside = .outside := by
  induction t with
  | nil => rfl
  | cons c t ih =>
    obtain ⟨hc, ht⟩ := by simpa using h
    rw [List.foldl_cons, Quoting.step, if_neg (Ne.symm hc), ih ht]

/-- The name that a piece starts with, if it is the token of one. -/
def name? (p : Piece) : Option Text := p.token?.bind Token.name?

@[simp] theorem name?_lexeme (s : Text) (token : Token) : (lexeme s token).name? = token.name? := rfl

/-- What a piece has beyond its name: a subscript, or all of it if there is no name. -/
def beyondName (p : Piece) : Text := p.source.drop (p.name?.elim 0 List.length)

theorem exists_beyond {p : Piece} (h : '"' ∈ p.beyondName) : ∃ u v, p.source = u ++ '"' :: v ∧
    ∀ name ∈ p.name?, name <+: p.source → name.byteSize ≤ u.byteSize := by
  obtain ⟨u, v, heq⟩ := List.append_of_mem h
  refine ⟨p.source.take (p.name?.elim 0 List.length) ++ u, v, ?_, fun name hname hstarts => ?_⟩
  · rw [List.append_assoc, ← heq, beyondName, List.take_append_drop]
  · rw [Option.mem_def.1 hname, Option.elim_some, ← List.prefix_iff_eq_take.1 hstarts]
    exact Text.byteSize_le_of_starts (List.prefix_append name u)

/-- After a piece whose quotes all stand in its name the reader is outside again. -/
theorem foldl_source {c : Char} {s more : Text} (hs : (first c (s ++ more)).source = c :: s)
    (hmore : more ≠ []) (hquotes : '"' ∉ (first c (s ++ more)).beyondName) :
    (c :: s).foldl Quoting.step .outside = .outside := by
  cases hp : first c (s ++ more) with
  | gap s' =>
    rw [hp] at hs hquotes
    rw [← hs]
    exact foldl_outside hquotes
  | lexeme s' token =>
    rw [hp] at hs hquotes
    obtain rfl : s' = c :: s := hs
    cases hname : token.name? with
    | none => exact foldl_outside (by simpa [beyondName, source, hname] using hquotes)
    | some name =>
      obtain ⟨⟨tail, htail⟩, hkind⟩ := name_of_first hp hname
      have hnone : '"' ∉ tail := by simpa [beyondName, source, hname, ← htail] using hquotes
      have houtside : name.foldl Quoting.step .outside = .outside := by
        rcases hkind with ⟨rfl, rfl⟩ | ⟨hc, rfl⟩
        · have hbody : throughClosing '"' false (s ++ more) ++ tail = s := (List.cons.inj htail).2
          have hsplit : s ++ more = throughClosing '"' false (s ++ more) ++ (tail ++ more) := by
            rw [← List.append_assoc, hbody]
          exact foldl_quoting_eq hsplit (List.append_ne_nil_of_right_ne_nil _ hmore)
        · exact foldl_outside (not_mem_bare hc (by decide) (by decide) (by decide))
      rw [← htail, List.foldl_append, houtside, foldl_outside hnone]

theorem foldl_pieces {t : Text} {ps qs : List Piece} (hscan : scan t = ps ++ qs) (hqs : qs ≠ [])
    (hquotes : ∀ p ∈ ps, '"' ∉ p.beyondName) :
    (ps.flatMap source).foldl Quoting.step .outside = .outside := by
  induction ps generalizing t with
  | nil => rfl
  | cons p ps ih =>
    rcases scan_cases t with ⟨rfl, hnil⟩ | ⟨c, s, more, rfl, hs, ht⟩
    · simp [hscan] at hnil
    · rw [hscan, List.cons_append] at ht
      obtain ⟨rfl, hmore⟩ := List.cons.inj ht
      obtain ⟨hp, hps⟩ := List.forall_mem_cons.1 hquotes
      have hne : more ≠ [] := by
        rintro rfl
        rw [scan_nil] at hmore
        exact hqs (List.append_eq_nil_iff.1 hmore).2
      rw [List.flatMap_cons, List.foldl_append, hs, foldl_source hs hne hp, ih hmore.symm hps]

end Piece

namespace Token

open Piece Line

/-- The character at this offset stands in the name of a token. -/
def StandsInName (t : Text) (offset : Nat) : Prop :=
  ∃ l ∈ located t, ∃ name ∈ l.token.name?, l.start ≤ offset ∧ offset < l.start + name.byteSize

/-- Two pieces of one text that overlap are the same piece. -/
theorem eq_of_overlap {ps qs ps' qs' : List Piece} {p p' : Piece}
    (h : ps ++ p :: qs = ps' ++ p' :: qs')
    (hlt : Text.byteSize (ps'.flatMap source) < Text.byteSize ((ps ++ [p]).flatMap source))
    (hlt' : Text.byteSize (ps.flatMap source) < Text.byteSize ((ps' ++ [p']).flatMap source)) :
    ps = ps' ∧ p = p' := by
  have hle (ps between : List Piece) (p : Piece) : Text.byteSize ((ps ++ [p]).flatMap source) ≤
      Text.byteSize ((ps ++ p :: between).flatMap source) :=
    Text.byteSize_le_of_starts ⟨between.flatMap source, by simp⟩
  rcases List.append_eq_append_iff.1 h with ⟨between, rfl, hb⟩ | ⟨between, rfl, hb⟩
  · cases between with
    | nil => exact ⟨(List.append_nil ps).symm, (List.cons.inj hb).1⟩
    | cons x between =>
      obtain ⟨rfl, -⟩ := List.cons.inj hb
      exact absurd hlt (Nat.not_lt_of_le (hle ps between p))
  · cases between with
    | nil => exact ⟨List.append_nil ps', (List.cons.inj hb).1.symm⟩
    | cons x between =>
      obtain ⟨rfl, -⟩ := List.cons.inj hb
      exact absurd hlt' (Nat.not_lt_of_le (hle ps' between p'))

/-- A quote beyond the name of a piece stands in no name. -/
theorem not_mem_beyondName {t : Text} {ps qs : List Piece} {p : Piece}
    (hscan : scan t = ps ++ p :: qs) (hquotes : ∀ u v, t = u ++ '"' :: v →
      u.byteSize < Text.byteSize ((ps ++ [p]).flatMap source) → StandsInName t u.byteSize) :
    '"' ∉ p.beyondName := by
  intro hmem
  obtain ⟨u, v, hsource, hbeyond⟩ := exists_beyond hmem
  have ht : t = ps.flatMap source ++ u ++ '"' :: (v ++ qs.flatMap source) := by
    rw [← scan_source t, hscan]
    simp [hsource]
  have hsize : Text.byteSize ((ps ++ [p]).flatMap source) =
      Text.byteSize (ps.flatMap source) + u.byteSize + Text.byteSize ('"' :: v) := by
    simp [hsource, Nat.add_assoc]
  have hpos := Text.byteSize_pos (List.cons_ne_nil '"' v)
  have hoffset := Text.byteSize_append (ps.flatMap source) u
  obtain ⟨l, hl, name, hname, hle, hlt⟩ := hquotes _ _ ht (by omega)
  obtain ⟨ps', s, rest, hscan', hstart, -⟩ := exists_piece hl
  obtain ⟨c, s', more, hfirst, -, -⟩ := exists_first hscan'
  obtain ⟨hstarts, -⟩ := name_of_first hfirst.symm hname
  have hshort := Text.byteSize_le_of_starts hstarts
  have hend : Text.byteSize ((ps' ++ [lexeme s l.token]).flatMap source) =
      Text.byteSize (ps'.flatMap source) + s.byteSize := by
    simp [source]
  -- the name stands in the same piece, so the quote is not beyond it
  obtain ⟨rfl, rfl⟩ := eq_of_overlap (hscan.symm.trans hscan') (by omega) (by omega)
  have := hbeyond name hname hstarts
  omega

/-- The reader is outside where a piece starts, if all quotes before it stand in names. -/
theorem outside_before {t : Text} {ps qs : List Piece} (hscan : scan t = ps ++ qs) (hqs : qs ≠ [])
    (hquotes : ∀ u v, t = u ++ '"' :: v → u.byteSize < Text.byteSize (ps.flatMap source) →
      StandsInName t u.byteSize) :
    (ps.flatMap source).foldl Quoting.step .outside = .outside := by
  refine foldl_pieces hscan hqs fun p hp => ?_
  obtain ⟨xs, ys, rfl⟩ := List.append_of_mem hp
  rw [List.append_assoc] at hscan
  refine not_mem_beyondName hscan fun u v heq hu => hquotes u v heq (hu.trans_le ?_)
  exact Text.byteSize_le_of_starts (by simp)

/-- A quoted name in its text. -/
theorem exists_quoted {t s name : Text} {ps rest : List Piece} {token : Token}
    (hscan : scan t = ps ++ lexeme s token :: rest) (hname : token.name? = some name)
    (hquoted : name.head? = some '"') : ∃ body after,
      name = '"' :: throughClosing '"' false body ∧ t = ps.flatMap source ++ name ++ after := by
  obtain ⟨c, s', more, hfirst, -, -⟩ := exists_first hscan
  obtain ⟨⟨tail, htail⟩, hkind⟩ := name_of_first hfirst.symm hname
  have ht : t = ps.flatMap source ++ name ++ (tail ++ rest.flatMap source) := by
    rw [← scan_source t, hscan, List.append_assoc, ← List.append_assoc name, htail]
    simp [source]
  rcases hkind with ⟨-, hbody⟩ | ⟨hc, rfl⟩
  · exact ⟨_, _, hbody, ht⟩
  · obtain rfl : c = '"' := by simpa using hquoted
    exact absurd hc (by decide)

/-- A line of a wrapped text does not end inside of a quoted name, unless a double quote stands before
the name that is itself in no name: in a literal, a comment or a subscript. -/
theorem not_endsLine_in_name {width : Nat} {first other t before name : Text} {l : Located}
    (hends : EndsLine width first other t before) (hl : l ∈ located t)
    (hname : l.token.name? = some name) (hquoted : name.head? = some '"')
    (hquotes : ∀ u v, t = u ++ '"' :: v → u.byteSize < l.start → StandsInName t u.byteSize) :
    ¬ (l.start < before.byteSize ∧ before.byteSize < l.start + name.byteSize) := by
  rintro ⟨hlt, hlt'⟩
  obtain ⟨ps, s, rest, hscan, hstart, -⟩ := exists_piece hl
  rw [hstart] at hquotes hlt hlt'
  rw [← Text.byteSize_append] at hlt'
  have houtside := outside_before hscan (List.cons_ne_nil _ _) hquotes
  obtain ⟨body, after, rfl, ht⟩ := exists_quoted hscan hname hquoted
  have hbreak := hends.mayBreak
  obtain ⟨next, hnext⟩ := hbreak.exists_eq
  have hbefore : before <+: t := ⟨_, hnext.symm⟩
  have hstarts : ps.flatMap source <+: t := ⟨_, by rw [ht, List.append_assoc]⟩
  -- what stands before the line break ends within the name, after `u`
  obtain ⟨c, u, rfl⟩ := Text.exists_append_of_byteSize_lt hstarts hbefore hlt
  obtain ⟨d, v, heq⟩ := Text.exists_append_of_byteSize_lt hbefore ⟨_, ht.symm⟩ hlt'
  rw [List.append_assoc] at heq
  obtain ⟨rfl, hbody⟩ := List.cons.inj (List.append_cancel_left heq)
  have hinside : u.foldl Quoting.step (quoting false) ≠ .outside := foldl_quoting_ne hbody
  have hout := hbreak.outside
  rw [List.nil_append, List.foldl_append, houtside] at hout
  exact hinside hout

/-- Two quoted names, with a subscript after the second one. -/
def quotedSum : Text := "\"a b\" + \"c d\"[x]".toList

theorem quotedSum_unbroken : let before : Text := "\"a b\" +".toList
    let l : Located := ⟨8, .subscripted "\"c d\"".toList "x".toList, 16⟩
    EndsLine 12 [] ['\t'] quotedSum before ∧ l ∈ located quotedSum ∧
      (∀ u v, quotedSum = u ++ '"' :: v → u.byteSize < l.start →
        StandsInName quotedSum u.byteSize) ∧
      ¬ (l.start < before.byteSize ∧ before.byteSize < l.start + Text.byteSize "\"c d\"".toList) := by
  intro before l
  have hwrap : Line.wrap 12 [] ['\t'] quotedSum = [before, "\t\"c d\"[x]".toList] := by
    decide
  have hends : EndsLine 12 [] ['\t'] quotedSum before := Line.endsLine_head hwrap
  have hlocated : located quotedSum =
      [⟨0, .ident "\"a b\"".toList, 5⟩, ⟨6, .op ['+'], 7⟩, l] := by
    rw [located, Piece.scan_eq_scanUpTo]
    rfl
  have hl : l ∈ located quotedSum := by simp [hlocated]
  have hquotes (u v : Text) (h : quotedSum = u ++ '"' :: v) (hu : u.byteSize < l.start) :
      StandsInName quotedSum u.byteSize := by
    have hall : ∀ u : Text, u ∈ quotedSum.inits → (quotedSum.drop u.length).head? = some '"' →
        u.byteSize < 8 → u.byteSize < 5 := by
      decide
    refine ⟨⟨0, .ident "\"a b\"".toList, 5⟩, by simp [hlocated], _, rfl, Nat.zero_le _, ?_⟩
    exact hall u ((List.mem_inits _ _).2 ⟨_, h.symm⟩) (by simp [h]) hu
  exact ⟨hends, hl, hquotes, not_endsLine_in_name hends hl rfl rfl hquotes⟩

/-- A literal that holds a double quote, and a quoted name. -/
def literalSum : Text := "'\"' + \"flow of water\"".toList

/-- After a quote in a literal, a line ends inside of a quoted name. -/
theorem not_all_names_unbroken : ¬ ∀ (width : Nat) (first other t before name : Text) (l : Located),
    EndsLine width first other t before → l ∈ located t → l.token.name? = some name →
      name.head? = some '"' →
        ¬ (l.start < before.byteSize ∧ before.byteSize < l.start + name.byteSize) := by
  intro hall
  let name : Text := "\"flow of water\"".toList
  have hwrap : Line.wrap 18 ['\t'] ['\t', '\t'] literalSum =
      ["\t'\"' + \"flow of".toList, "\t\twater\"".toList] := by
    decide
  have hends : EndsLine 18 ['\t'] ['\t', '\t'] literalSum "'\"' + \"flow of".toList :=
    Line.endsLine_head hwrap
  have hlocated : located literalSum =
      [⟨0, .literal ['"'], 3⟩, ⟨4, .op ['+'], 5⟩, ⟨6, .ident name, 21⟩] := by
    rw [located, Piece.scan_eq_scanUpTo]
    rfl
  exact hall _ _ _ _ _ name ⟨6, .ident name, 21⟩ hends (by simp [hlocated]) rfl rfl (by decide)

end Token

end StockFlow
