import StockFlow.Line.Join
import StockFlow.Proofs.Characters
import StockFlow.Proofs.Greedy
import StockFlow.Proofs.Trimming

/-! Joining the lines of a wrapped text. A break stands at a space that joining puts back, and
neither side of it reads as a mark, so the pieces that joining takes from the lines are the pieces
that wrapping put there, and they join to the text. The one piece that can lose a character is the
last one when more lines follow it: a backslash at its end reads as a continuation. -/
namespace StockFlow.Line

open Text (IsTrimmed)

/-! ### Pieces of a text -/

/-- The text is cut at spaces into pieces, none of which begins or ends, inside the text, with a
character that joining would misread. -/
inductive Pieces : Text → List Text → Prop where
  | last (t : Text) : Pieces t [t]
  | cons {p q t : Text} {ps : List Text} (ends : p.getLast?.any mayEnd = true)
      (starts : q.head?.any mayStart = true) :
      Pieces t (q :: ps) → Pieces (p ++ ' ' :: t) (p :: q :: ps)

theorem not_isBlank_of_mayEnd {c : Char} (h : mayEnd c = true) : Unicode.isBlank c = false := by
  simp only [mayEnd, Bool.not_eq_true', Bool.or_eq_false_iff] at h
  exact h.1.1

theorem not_isBlank_of_mayStart {c : Char} (h : mayStart c = true) : Unicode.isBlank c = false := by
  simp only [mayStart, Bool.not_eq_true', Bool.or_eq_false_iff] at h
  exact h.1.1

theorem ne_nil_of_ends {p : Text} (h : p.getLast?.any mayEnd = true) : p ≠ [] := by
  rintro rfl
  simp at h

theorem ne_nil_of_starts {p : Text} (h : p.head?.any mayStart = true) : p ≠ [] := by
  rintro rfl
  simp at h

namespace Pieces

variable {t p q : Text} {ps : List Text}

theorem joined (h : Pieces t ps) : Text.joinWith " " ps = t := by
  induction h with
  | last t => simp [Text.joinWith]
  | cons _ _ _ ih =>
    rw [Text.joinWith] at ih ⊢
    rw [List.intercalate_cons_cons, ih]
    simp

theorem prefix_first (h : Pieces t (p :: ps)) : p <+: t := by
  cases h with
  | last => exact List.prefix_rfl
  | cons => exact List.prefix_append _ _

theorem ne_nil (h : Pieces t (p :: ps)) (hp : p ≠ []) : t ≠ [] := by
  rintro rfl
  exact hp (List.prefix_nil.1 h.prefix_first)

theorem isTrimmed (h : Pieces t ps) (ht : IsTrimmed t) : ∀ p ∈ ps, IsTrimmed p := by
  induction h with
  | last t => simpa using ht
  | @cons p q t ps he hs h ih =>
    have hp := ne_nil_of_ends he
    have hq := ne_nil_of_starts hs
    have hrest : IsTrimmed t := by
      refine ⟨fun c hc => ?_, fun c hc => ht.last c ?_⟩
      · obtain ⟨s, rfl⟩ := h.prefix_first
        rw [List.head?_append_of_ne_nil _ hq] at hc
        rw [hc] at hs
        exact not_isBlank_of_mayStart hs
      · rw [List.append_cons, List.getLast?_append_of_ne_nil _ (h.ne_nil hq)]
        exact hc
    refine List.forall_mem_cons.2 ⟨⟨fun c hc => ht.head c ?_, fun c hc => ?_⟩, ih hrest⟩
    · rw [List.head?_append_of_ne_nil _ hp]
      exact hc
    · rw [hc] at he
      exact not_isBlank_of_mayEnd he

theorem starts (h : Pieces t (p :: ps)) : ∀ q ∈ ps, q.head?.any mayStart = true := by
  generalize hl : p :: ps = l at h
  induction h generalizing p ps with
  | last => simp_all
  | cons he hs h ih =>
    obtain ⟨rfl, rfl⟩ := List.cons.inj hl
    exact List.forall_mem_cons.2 ⟨hs, ih rfl⟩

theorem head (h : Pieces t (p :: ps)) (ht : t.head?.any mayStart = true) :
    p.head?.any mayStart = true := by
  cases h with
  | last => exact ht
  | cons ends => rwa [List.head?_append_of_ne_nil _ (ne_nil_of_ends ends)] at ht

end Pieces

/-- The pieces of a text that is laid out, in lines that begin with their prefixes. No piece but the
last is empty, since `before` does not end as a line may end. -/
theorem Laid.pieces {width : Nat} {other before start t : Text} {lines : List Text}
    (h : Laid width other before start t lines) (hbefore : before.getLast?.any mayEnd = false) :
    ∃ p ps, lines = (start ++ p) :: ps.map (other ++ ·) ∧ Pieces t (p :: ps) := by
  induction h with
  | @last before start t _ => exact ⟨t, [], rfl, .last t⟩
  | @cons before start p rest lines hbreak _ _ _ ih =>
    obtain ⟨q, qs, rfl, hq⟩ := ih (by simp [mayEnd, show Unicode.isBlank ' ' = true by decide])
    obtain ⟨-, hends, rest', heq, hstarts⟩ := hbreak
    obtain rfl := (List.cons.inj (List.append_cancel_left heq)).2
    have hp : p ≠ [] := by
      rintro rfl
      rw [List.append_nil, hbefore] at hends
      exact Bool.false_ne_true hends
    rw [List.getLast?_append_of_ne_nil _ hp] at hends
    exact ⟨p, q :: qs, rfl, .cons hends (hq.head hstarts) hq⟩

/-- A wrapped text is its pieces, each after the prefix of its line. -/
theorem wrap_pieces (width : Nat) (first other t : Text) :
    ∃ p ps, wrap width first other t = (first ++ p) :: ps.map (other ++ ·) ∧ Pieces t (p :: ps) :=
  (laid_wrap width first other t).pieces rfl

/-! ### What joining takes from a line -/

/-- A text without the backslash at its end that says that it goes on. -/
def continued (t : Text) : Text := (t.dropLast? '\\').elim t Text.trimEnd

/-- A line without its ending, the mark at its head and the blanks around it. -/
def content (head : Option Mark) (line : Text) : Text :=
  (strip head Mark.stripHead (withoutEnding line)).trim

theorem innerPiece_eq (head : Option Mark) (line : Text) :
    innerPiece head line = continued (content head line) := by
  unfold innerPiece continued content
  cases h : Text.dropLast? '\\' (strip head Mark.stripHead (withoutEnding line)).trim <;> simp [h]

theorem lastPiece_eq (head : Option Mark) (line : Text) :
    lastPiece head none line = content head line := rfl

theorem pieces_append (head tail : Option Mark) (lines : List Text) (line : Text) :
    pieces head tail (lines ++ [line]) = lines.map (innerPiece head) ++ [lastPiece head tail line] := by
  induction lines with
  | nil => rfl
  | cons l lines ih =>
    cases lines with
    | nil => rfl
    | cons l' lines =>
      rw [List.cons_append, List.cons_append, pieces, ← List.cons_append, ih]
      · rfl
      · simp

theorem continued_eq_self {t : Text} (h : t.getLast? ≠ some '\\') : continued t = t := by
  rw [continued, Text.dropLast?_eq_none h]
  rfl

theorem continued_of_ends {p : Text} (h : p.getLast?.any mayEnd = true) : continued p = p := by
  refine continued_eq_self fun hl => ?_
  simp [hl, mayEnd] at h

/-- The text `t` after `p` on one line. -/
def spaced (p t : Text) : Text := if t.isEmpty then p else p ++ ' ' :: t

theorem spaced_of_ne_nil {p t : Text} (h : t ≠ []) : spaced p t = p ++ ' ' :: t := by
  simp [spaced, h]

theorem continued_append {p t : Text} (hp : p.getLast?.any mayEnd = true) (ht : t ≠ []) :
    continued (p ++ ' ' :: t) = spaced p (continued t) := by
  have hpt : (p ++ ' ' :: t).getLast? = t.getLast? := by
    rw [List.append_cons]
    exact List.getLast?_append_of_ne_nil _ ht
  by_cases hl : t.getLast? = some '\\'
  · have hd : (p ++ ' ' :: t).dropLast = p ++ ' ' :: t.dropLast := by
      rw [List.append_cons, List.dropLast_append_of_ne_nil ht, List.append_cons p ' ' t.dropLast]
    have hc : continued t = Text.trimEnd t.dropLast := by simp [continued, Text.dropLast?, hl]
    have hcp : continued (p ++ ' ' :: t) = Text.trimEnd ((p ++ [' ']) ++ t.dropLast) := by
      simp [continued, Text.dropLast?, hpt, hl, hd]
    rw [hc, hcp]
    by_cases hn : Text.trimEnd t.dropLast = []
    · obtain ⟨s, hs, hb⟩ := Text.exists_dropTrailing Unicode.isBlank t.dropLast
      rw [show Text.dropTrailing Unicode.isBlank t.dropLast = [] from hn, List.nil_append] at hs
      have hsp : ∀ c ∈ [' '] ++ s, Unicode.isBlank c = true :=
        List.forall_mem_cons.2 ⟨by decide, hb⟩
      rw [hn, hs, List.append_assoc, Text.trimEnd_append_of_blank hsp, Text.trimEnd_eq_self]
      · rfl
      · intro c hc
        rw [hc] at hp
        exact not_isBlank_of_mayEnd hp
    · rw [spaced_of_ne_nil hn, Text.trimEnd, Text.dropTrailing_append_of_ne_nil hn]
      simp [Text.trimEnd]
  · rw [continued_eq_self hl, spaced_of_ne_nil ht, continued_eq_self (by rwa [hpt])]

/-! ### Joined pieces -/

/-- The pieces with single spaces between them, those with nothing in them left out. -/
def together (ps : List Text) : Text := Text.joinWith " " (ps.filter fun p => !p.isEmpty)

theorem join_eq (head tail : Option Mark) (lines : List Text) (line : Text) :
    join head tail (lines ++ [line]) =
      together ((lines.map fun l => continued (content head l)) ++ [lastPiece head tail line]) := by
  rw [join, pieces_append, funext (innerPiece_eq head)]
  rfl

theorem together_cons_nil (ps : List Text) : together ([] :: ps) = together ps := by
  simp [together]

theorem together_append_nil (ps : List Text) : together (ps ++ [[]]) = together ps := by
  simp [together]

theorem together_cons {p : Text} (hp : p ≠ []) (ps : List Text) :
    together (p :: ps) = spaced p (together ps) := by
  have hf : (p :: ps).filter (fun p => !p.isEmpty) = p :: ps.filter fun p => !p.isEmpty := by
    simp [hp]
  unfold together Text.joinWith
  rw [hf]
  cases h : ps.filter fun p => !p.isEmpty with
  | nil => simp [spaced]
  | cons q qs =>
    have hq : q ≠ [] := by
      have : q ∈ ps.filter fun p => !p.isEmpty := h ▸ .head _
      simpa using (List.mem_filter.1 this).2
    have hne : List.intercalate " ".toList (q :: qs) ≠ [] := by
      cases qs <;> simp [List.intercalate_cons_cons, hq]
    rw [List.intercalate_cons_cons, spaced_of_ne_nil hne]
    simp

namespace Pieces

variable {t : Text} {ps : List Text}

theorem together_eq (h : Pieces t ps) : together ps = t := by
  induction h with
  | last t => cases t <;> simp [together, Text.joinWith]
  | cons he hs h ih =>
    rw [together_cons (ne_nil_of_ends he), ih, spaced_of_ne_nil (h.ne_nil (ne_nil_of_starts hs))]

/-- If more lines follow, the text loses the backslash at its end, and nothing else. -/
theorem together_continued (h : Pieces t ps) : together (ps.map continued) = continued t := by
  induction h with
  | last t => cases h : continued t <;> simp [together, Text.joinWith, h]
  | cons he hs h ih =>
    rw [List.map_cons, continued_of_ends he, together_cons (ne_nil_of_ends he), ih,
      continued_append he (h.ne_nil (ne_nil_of_starts hs))]

theorem map_continued_dropLast (h : Pieces t ps) : ps.dropLast.map continued = ps.dropLast := by
  induction h with
  | last => rfl
  | cons he hs h ih => rw [List.dropLast_cons_cons, List.map_cons, continued_of_ends he, ih]

end Pieces

/-! ### Lines with prefixes -/

/-- The ending of a line is no part of what the line holds. -/
theorem withoutEnding_ending (line : Text) (ending : Newline) :
    withoutEnding (line ++ ending.text) = withoutEnding line := by
  have he : (ending.text.all fun c => c == '\n' || c == '\r') = true := by cases ending <;> decide
  exact Text.dropTrailing_append (List.all_eq_true.1 he)

theorem withoutEnding_eq_self {t : Text} (ht : ∀ c ∈ t.getLast?, c ≠ '\n' ∧ c ≠ '\r') :
    withoutEnding t = t :=
  Text.dropTrailing_eq_self fun c hc => by simpa using ht c hc

theorem not_newline_of_not_isBlank {c : Char} (h : Unicode.isBlank c = false) :
    c ≠ '\n' ∧ c ≠ '\r' := by
  constructor <;> rintro rfl <;> exact absurd h (by decide)

theorem trim_withoutEnding (line : Text) : (withoutEnding line).trim = line.trim := by
  obtain ⟨s, hs, hb⟩ := Text.exists_dropTrailing (fun c => c == '\n' || c == '\r') line
  have hblank : ∀ c ∈ s, Unicode.isBlank c = true := by
    intro c hc
    have := hb c hc
    simp only [Bool.or_eq_true, beq_iff_eq] at this
    rcases this with rfl | rfl <;> decide
  conv_rhs => rw [hs, Text.trim_append_of_blank hblank]
  rfl

theorem content_none (line : Text) : content none line = line.trim := trim_withoutEnding line

/-- Taking the delimiter from a line takes the blanks at its start and one tilde after them. -/
theorem stripHead_delimiter (line : Text) :
    Mark.stripHead .delimiter line = match line.trimStart with
      | '~' :: rest => rest
      | rest => rest := by
  simp only [Mark.stripHead, Mark.find?, Text.trimStart]
  generalize line.dropWhile Unicode.isBlank = start
  cases start with
  | nil => rfl
  | cons c rest =>
    by_cases hc : c = '~'
    · subst hc
      rfl
    · split
      next after heq =>
        obtain rfl : c :: rest = after := by simpa [hc] using heq
        split <;> simp_all
      next hn => simp [hc] at hn

section Prefixed

variable {p : Text} (hp : IsTrimmed p)
include hp

theorem content_plain {before : Text} (hb : ∀ c ∈ before, Unicode.isBlank c = true) :
    content none (before ++ p) = p := by
  rw [content_none, ← List.append_nil (before ++ p)]
  exact hp.trim_surrounded hb (List.forall_mem_nil _)

theorem withoutEnding_prefixed {before : Text} (hb : before.getLast?.any (· == '\t') = true) :
    withoutEnding (before ++ p) = before ++ p := by
  refine withoutEnding_eq_self fun c hc => ?_
  rcases List.eq_nil_or_concat' p with rfl | ⟨q, d, rfl⟩
  · rw [List.append_nil] at hc
    rw [hc] at hb
    obtain rfl : c = '\t' := by simpa using hb
    decide
  · refine not_newline_of_not_isBlank (hp.last c ?_)
    simpa using hc

theorem content_delimited : content (some .delimiter) (['\t', '~', '\t'] ++ p) = p := by
  have hs : Text.trimStart (['\t', '~', '\t'] ++ p) = '~' :: '\t' :: p := rfl
  rw [content, strip, withoutEnding_prefixed hp rfl, stripHead_delimiter, hs]
  have h : Text.trim (['\t'] ++ p ++ []) = p := hp.trim_surrounded (by simp; decide) (by simp)
  simpa using h

theorem content_continuation (hs : p.head?.any mayStart = true) :
    content (some .delimiter) (['\t', '\t'] ++ p) = p := by
  rw [content, strip, withoutEnding_prefixed hp rfl, stripHead_delimiter,
    Text.trimStart_append_of_blank (by simp; decide), hp.trimStart_eq]
  cases p with
  | nil => rfl
  | cons c rest =>
    have hc : c ≠ '~' := by
      rintro rfl
      simp [mayStart] at hs
    split
    next heq => exact absurd (List.cons.inj heq).1 hc
    next => exact hp.trim_eq

end Prefixed

theorem map_content_ending (head : Option Mark) (lines : List Text) (ending : Newline) :
    (lines.map (· ++ ending.text)).map (content head) = lines.map (content head) := by
  simp [content, withoutEnding_ending]

theorem lastPiece_terminator (ending : Newline) :
    lastPiece (some .delimiter) (some .terminator) (['\t', '|'] ++ ending.text) = [] := by
  cases ending <;> decide

/-! ### Wrapped and joined -/

section Wrapped

variable {t : Text} (ht : IsTrimmed t) (width : Nat)
include ht

/-- What the lines of a wrapped equation hold. -/
theorem content_wrap_plain :
    Pieces t ((wrap width ['\t'] ['\t', '\t'] t).map (content none)) := by
  obtain ⟨p, ps, hw, hp⟩ := wrap_pieces width ['\t'] ['\t', '\t'] t
  have hall := hp.isTrimmed ht
  have hrest : (ps.map (['\t', '\t'] ++ ·)).map (content none) = ps := by
    rw [List.map_map]
    conv_rhs => rw [← List.map_id ps]
    exact List.map_congr_left fun q hq => content_plain (hall q (.tail _ hq)) (by simp; decide)
  rw [hw, List.map_cons, content_plain (hall p (.head _)) (by simp; decide), hrest]
  exact hp

/-- What the lines of wrapped units, or of a wrapped comment, hold. -/
theorem content_wrap_delimited :
    Pieces t ((wrap width ['\t', '~', '\t'] ['\t', '\t'] t).map (content (some .delimiter))) := by
  obtain ⟨p, ps, hw, hp⟩ := wrap_pieces width ['\t', '~', '\t'] ['\t', '\t'] t
  have hall := hp.isTrimmed ht
  have hrest : (ps.map (['\t', '\t'] ++ ·)).map (content (some .delimiter)) = ps := by
    rw [List.map_map]
    conv_rhs => rw [← List.map_id ps]
    exact List.map_congr_left fun q hq =>
      content_continuation (hall q (.tail _ hq)) (hp.starts q hq)
  rw [hw, List.map_cons, content_delimited (hall p (.head _)), hrest]
  exact hp

end Wrapped

/-- Lines that hold the pieces of a text join to the text. -/
theorem join_of_content {head : Option Mark} {lines : List Text} {t : Text}
    (h : Pieces t (lines.map (content head))) : join head none lines = t := by
  rcases List.eq_nil_or_concat' lines with rfl | ⟨lines, line, rfl⟩
  · cases h
  · have hd := h.map_continued_dropLast
    rw [List.map_append, List.map_singleton, List.dropLast_concat] at hd
    rw [join_eq, lastPiece_eq, ← Function.comp_def, ← List.map_map, hd,
      ← List.map_singleton (f := content head), ← List.map_append, h.together_eq]

/-- Where a line follows that holds nothing, the text loses the backslash at its end. -/
theorem join_of_content_append {head tail : Option Mark} {lines : List Text} {line t : Text}
    (h : Pieces t (lines.map (content head))) (hlast : lastPiece head tail line = []) :
    join head tail (lines ++ [line]) = continued t := by
  rw [join_eq, hlast, together_append_nil, ← Function.comp_def, ← List.map_map,
    h.together_continued]

/-- An empty line before others adds nothing. -/
theorem join_nil_cons {head : Option Mark} {tail : Option Mark} {lines : List Text}
    (hn : lines ≠ []) (hc : content head [] = []) :
    join head tail ([] :: lines) = join head tail lines := by
  rcases List.eq_nil_or_concat' lines with rfl | ⟨lines, line, rfl⟩
  · exact absurd rfl hn
  · rw [← List.cons_append, join_eq, join_eq, List.map_cons, List.cons_append, hc,
      show continued [] = [] from rfl, together_cons_nil]

/-- Joining the lines of a wrapped text gives the text, whatever it holds and however narrow the
lines are, where they are laid out as an equation and where as units. -/
theorem join_wrap {t : Text} (ht : IsTrimmed t) (width : Nat) :
    join none none (wrap width ['\t'] ['\t', '\t'] t) = t ∧
      join (some .delimiter) none (wrap width ['\t', '~', '\t'] ['\t', '\t'] t) = t :=
  ⟨join_of_content (content_wrap_plain ht width), join_of_content (content_wrap_delimited ht width)⟩

/-- A text with all that joining could misread where a line begins or ends. -/
def markedText : Text := "~ a \"b ~ c\" d  e\t~ f | g \\ h\\i j\\".toList

theorem markedText_joined : IsTrimmed markedText ∧
    (wrap 4 ['\t'] ['\t', '\t'] markedText).length = 6 ∧
    join none none (wrap 4 ['\t'] ['\t', '\t'] markedText) = markedText ∧
    join (some .delimiter) none (wrap 4 ['\t', '~', '\t'] ['\t', '\t'] markedText) = markedText := by
  have htrim : markedText.trim = markedText := by decide
  have ht : IsTrimmed markedText := htrim ▸ Text.isTrimmed_trim markedText
  exact ⟨ht, by decide, join_wrap ht 4⟩

end StockFlow.Line
