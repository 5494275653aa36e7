import StockFlow.Line.Wrap

/-! Lines are filled as far as they go. A line keeps to the width unless it cannot be broken any
earlier, and it ends only where each later place to end it, the end of the text among them, would make
it too wide. Just one way to break a text is like this, so the two rules say all there is to say of a
wrapped text. -/
namespace StockFlow.Line

/-! ### Places to break -/

/-- The text `t`, which stands after `before`, can be broken after its start `u`: a space follows,
outside of quoted names, and neither character beside it would be misread at the edge of a line. -/
structure MayBreak (before t u : Text) : Prop where
  outside : (before ++ u).foldl Quoting.step .outside = .outside
  ends : (before ++ u).getLast?.any mayEnd = true
  starts : ∃ rest, t = u ++ ' ' :: rest ∧ rest.head?.any mayStart = true

namespace MayBreak

variable {before t u v : Text} {c : Char}

theorem cons_iff : MayBreak before (c :: t) (c :: u) ↔ MayBreak (before ++ [c]) t u := by
  have happend : before ++ c :: u = before ++ [c] ++ u := List.append_cons before c u
  constructor
  · rintro ⟨hout, hends, rest, heq, hstarts⟩
    exact ⟨happend ▸ hout, happend ▸ hends, rest, (List.cons.inj heq).2, hstarts⟩
  · rintro ⟨hout, hends, rest, rfl, hstarts⟩
    exact ⟨happend ▸ hout, happend ▸ hends, rest, rfl, hstarts⟩

theorem append_iff : MayBreak before (v ++ t) (v ++ u) ↔ MayBreak (before ++ v) t u := by
  induction v generalizing before with
  | nil => simp
  | cons c v ih => rw [List.cons_append, List.cons_append, cons_iff, ih, List.append_cons before c v]

theorem nil_iff : MayBreak before (c :: t) [] ↔
    isBreak (before.foldl Quoting.step .outside) before.getLast? c t.head? = true := by
  simp only [isBreak, Bool.and_eq_true, beq_iff_eq]
  constructor
  · rintro ⟨hout, hends, rest, heq, hstarts⟩
    obtain ⟨rfl, rfl⟩ := List.cons.inj heq
    rw [List.append_nil] at hout hends
    exact ⟨⟨⟨hout, rfl⟩, hends⟩, hstarts⟩
  · rintro ⟨⟨⟨hout, rfl⟩, hends⟩, hstarts⟩
    exact ⟨by rwa [List.append_nil], by rwa [List.append_nil], t, rfl, hstarts⟩

theorem exists_eq (h : MayBreak before t u) : ∃ rest, t = u ++ ' ' :: rest := by
  obtain ⟨-, -, rest, heq, -⟩ := h
  exact ⟨rest, heq⟩

theorem length_lt (h : MayBreak before t u) : u.length < t.length := by
  obtain ⟨rest, rfl⟩ := h.exists_eq
  simp

/-- A break of a text after one of its spaces is a break of what follows the space. -/
theorem of_longer {p rest : Text} (h : MayBreak before (p ++ ' ' :: rest) u)
    (hl : p.length < u.length) : ∃ w, u = p ++ ' ' :: w ∧ MayBreak (before ++ p ++ [' ']) rest w := by
  obtain ⟨more, heq⟩ := h.exists_eq
  obtain ⟨v, rfl⟩ : p <+: u :=
    List.prefix_of_prefix_length_le (List.prefix_append p _) ⟨' ' :: more, heq.symm⟩ (Nat.le_of_lt hl)
  rw [append_iff] at h
  cases v with
  | nil => simp at hl
  | cons d w =>
    rw [List.append_assoc] at heq
    obtain rfl : ' ' = d := (List.cons.inj (List.append_cancel_left heq)).1
    exact ⟨w, rfl, cons_iff.1 h⟩

end MayBreak

/-- The stretches between all places where the text `t`, which stands after `before`, can be broken. -/
inductive Cuts : Text → Text → Text → List Text → Prop where
  | last {before t : Text} : (∀ u, ¬ MayBreak before t u) → Cuts before t t []
  | cons {before s rest next : Text} {more : List Text} : MayBreak before (s ++ ' ' :: rest) s →
      (∀ u, MayBreak before (s ++ ' ' :: rest) u → s.length ≤ u.length) →
      Cuts (before ++ s ++ [' ']) rest next more → Cuts before (s ++ ' ' :: rest) s (next :: more)

/-- A text cannot be broken before the end of its first stretch. -/
theorem Cuts.le {before t s u : Text} {more : List Text} (h : Cuts before t s more)
    (hu : MayBreak before t u ∨ u = t) : s.length ≤ u.length := by
  cases h with
  | last hnone =>
    rcases hu with hu | rfl
    · exact absurd hu (hnone u)
    · exact Nat.le_refl _
  | cons hs hleast _ =>
    rcases hu with hu | rfl
    · exact hleast u hu
    · exact Nat.le_of_lt hs.length_lt

theorem Cuts.cons_char {before t s : Text} {c : Char} {more : List Text}
    (hc : ¬ MayBreak before (c :: t) []) (h : Cuts (before ++ [c]) t s more) :
    Cuts before (c :: t) (c :: s) more := by
  cases h with
  | last hnone =>
    refine .last fun u hu => ?_
    cases u with
    | nil => exact hc hu
    | cons d u =>
      obtain ⟨rest, heq⟩ := hu.exists_eq
      obtain rfl : c = d := (List.cons.inj heq).1
      exact hnone u (MayBreak.cons_iff.1 hu)
  | @cons _ _ rest next more hs hleast hmore =>
    rw [← List.cons_append] at hc ⊢
    refine .cons (MayBreak.cons_iff.2 hs) (fun u hu => ?_) (by simpa using hmore)
    cases u with
    | nil => exact absurd hu hc
    | cons d u =>
      obtain ⟨rest', heq⟩ := hu.exists_eq
      obtain rfl : c = d := (List.cons.inj heq).1
      exact Nat.succ_le_succ (hleast u (MayBreak.cons_iff.1 hu))

theorem cuts_cut (before t : Text) :
    Cuts before t (cut (before.foldl Quoting.step .outside) before.getLast? t).1
      (cut (before.foldl Quoting.step .outside) before.getLast? t).2 := by
  induction t generalizing before with
  | nil => exact .last fun u hu => by simpa using hu.length_lt
  | cons c rest ih =>
    have hrest := ih (before ++ [c])
    have hstep : (before ++ [c]).foldl Quoting.step .outside =
        (before.foldl Quoting.step .outside).step c := List.foldl_append
    rw [hstep, List.getLast?_concat] at hrest
    simp only [cut]
    generalize cut ((before.foldl Quoting.step .outside).step c) (some c) rest = r at hrest
    split
    next hb =>
      have hbreak := MayBreak.nil_iff.2 hb
      obtain ⟨rest', heq⟩ := hbreak.exists_eq
      obtain ⟨rfl, rfl⟩ := List.cons.inj heq
      exact .cons (s := []) hbreak (fun u _ => Nat.zero_le _) (by simpa using hrest)
    next hb => exact hrest.cons_char fun h => hb (MayBreak.nil_iff.1 h)

/-! ### Lines -/

/-- The text `t`, which stands after `before`, in lines of which the first begins with `start` and
every other with `other`. A line fits the width, or it ends at the first place where the text can be
broken; and it does not fit if it ends at any later place, or with the text. -/
inductive Laid (width : Nat) (other : Text) : Text → Text → Text → List Text → Prop where
  | last {before start t : Text} :
      (start ++ t).length ≤ width ∨ (∀ u, ¬ MayBreak before t u) →
      Laid width other before start t [start ++ t]
  | cons {before start p rest : Text} {lines : List Text} :
      MayBreak before (p ++ ' ' :: rest) p →
      (start ++ p).length ≤ width ∨
        (∀ u, MayBreak before (p ++ ' ' :: rest) u → p.length ≤ u.length) →
      (∀ u, MayBreak before (p ++ ' ' :: rest) u ∨ u = p ++ ' ' :: rest → p.length < u.length →
        width < (start ++ u).length) →
      Laid width other (before ++ p ++ [' ']) other rest lines →
      Laid width other before start (p ++ ' ' :: rest) ((start ++ p) :: lines)

/-- A line that ends at a later place does not fit, so this is the first place for it to end. -/
theorem le_of_forced {width : Nat} {before start t p p' : Text} (hbreak : MayBreak before t p)
    (hfits : (start ++ p').length ≤ width ∨ ∀ u, MayBreak before t u → p'.length ≤ u.length)
    (hforced : p.length < p'.length → width < (start ++ p').length) : p'.length ≤ p.length := by
  refine Nat.le_of_not_lt fun hlt => ?_
  rcases hfits with hfits | hleast
  · exact absurd hfits (Nat.not_le_of_lt (hforced hlt))
  · exact absurd hlt (Nat.not_lt_of_le (hleast p hbreak))

/-- Only one list of lines is laid out so: of two lines that begin alike, the longer one would not
fit, and could have been broken earlier. -/
theorem Laid.eq {width : Nat} {other before start t : Text} {lines lines' : List Text}
    (h : Laid width other before start t lines) (h' : Laid width other before start t lines') :
    lines = lines' := by
  have hends {before start t p : Text} (hbreak : MayBreak before t p)
      (hforced : ∀ u, MayBreak before t u ∨ u = t → p.length < u.length → width < (start ++ u).length)
      (hfits : (start ++ t).length ≤ width ∨ ∀ u, ¬ MayBreak before t u) : False :=
    absurd (le_of_forced hbreak (hfits.imp_right fun hnone u hu => absurd hu (hnone u))
      (hforced t (.inr rfl))) (Nat.not_le_of_lt hbreak.length_lt)
  induction h generalizing lines' with
  | last hfits =>
    cases h' with
    | last => rfl
    | cons hbreak _ hforced _ => exact (hends hbreak hforced hfits).elim
  | @cons before start p rest lines hbreak hfits hforced _ ih =>
    generalize ht : p ++ ' ' :: rest = t at h' hbreak hfits hforced
    cases h' with
    | last hfits' => exact (hends hbreak hforced hfits').elim
    | @cons _ _ p' rest' lines' hbreak' hfits' hforced' hrest' =>
      have hle := le_of_forced hbreak' hfits (hforced' p (.inl hbreak))
      have hge := le_of_forced hbreak hfits' (hforced p' (.inl hbreak'))
      obtain ⟨rfl, hrest⟩ := List.append_inj ht (Nat.le_antisymm hle hge)
      obtain rfl := (List.cons.inj hrest).2
      rw [ih hrest']

/-- Filling a line that holds `q` and the stretch after it: it has been broken nowhere, or it fits. -/
theorem laid_fill {width : Nat} {other before q t s : Text} {stretches : List Text}
    (h : Cuts (before ++ q) t s stretches) (start : Text)
    (hq : q = [] ∨ (start ++ (q ++ s)).length ≤ width) :
    Laid width other before start (q ++ t) (fill width other (start ++ (q ++ s)) stretches) := by
  induction stretches generalizing before q t s start with
  | nil =>
    cases h with
    | last hnone =>
      refine .last (hq.symm.imp_right ?_)
      rintro rfl u hu
      exact hnone u (by simpa using hu)
  | cons next more ih =>
    cases h with
    | @cons _ _ rest _ _ hbreak hleast hrest =>
      have htext : q ++ (s ++ ' ' :: rest) = q ++ s ++ ' ' :: rest := (List.append_assoc ..).symm
      rw [fill]
      split
      next hfits =>
        -- the next stretch goes on the same line
        have hrest' : Cuts (before ++ (q ++ s ++ [' '])) rest next more := by simpa using hrest
        have hmore := ih hrest' start (.inr (by simp at hfits ⊢; omega))
        simpa using hmore
      next hwide =>
        have hrest' : Cuts (before ++ (q ++ s) ++ [' '] ++ []) rest next more := by
          simpa using hrest
        have hmore := ih hrest' other (.inl rfl)
        rw [htext]
        refine .cons ?_ (hq.symm.imp_right ?_) (fun u hu hl => ?_) (by simpa using hmore)
        · rw [← htext]
          exact MayBreak.append_iff.2 hbreak
        · rintro rfl u hu
          exact hleast u (by simpa using hu)
        · obtain ⟨w, rfl, hw⟩ : ∃ w, u = q ++ s ++ ' ' :: w ∧
              (MayBreak (before ++ q ++ s ++ [' ']) rest w ∨ w = rest) := by
            rcases hu with hu | rfl
            · obtain ⟨w, rfl, hw⟩ := hu.of_longer hl
              exact ⟨w, rfl, .inl (by simpa using hw)⟩
            · exact ⟨rest, rfl, .inr rfl⟩
          have hnext := hrest.le hw
          simp at hwide ⊢
          omega

theorem laid_wrap (width : Nat) (first other t : Text) :
    Laid width other [] first t (wrap width first other t) :=
  laid_fill (q := []) (cuts_cut [] t) first (.inl rfl)

/-- A text is wrapped in the one way in which each line fits or cannot be broken earlier, and no line
could have been ended later. -/
theorem laid_iff_wrap (width : Nat) (first other t : Text) (lines : List Text) :
    Laid width other [] first t lines ↔ lines = wrap width first other t := by
  constructor
  · exact fun h => h.eq (laid_wrap width first other t)
  · rintro rfl
    exact laid_wrap width first other t

end StockFlow.Line
