import Mathlib.Data.List.DropRight
import StockFlow.Text.Basic

/-! Texts without blanks at their edges. Every field of a record is one, since joining trims what it
puts together. -/
namespace StockFlow.Text

open Unicode (isBlank)

variable {p : Char → Bool} {s t : Text}

theorem dropTrailing_append (h : ∀ c ∈ s, p c = true) :
    dropTrailing p (t ++ s) = dropTrailing p t := by
  rw [dropTrailing, List.reverse_append, List.dropWhile_append_of_pos (by simpa using h)]
  rfl

theorem dropTrailing_eq_self (h : ∀ c ∈ t.getLast?, p c = false) : dropTrailing p t = t := by
  refine List.rdropWhile_eq_self_iff.2 fun hl => ?_
  rw [h _ (List.getLast_mem_getLast? hl)]
  simp

theorem last_dropTrailing (p : Char → Bool) (t : Text) :
    ∀ c ∈ (dropTrailing p t).getLast?, p c = false := by
  intro c hc
  have hl : dropTrailing p t ≠ [] := by
    intro hn
    simp [hn] at hc
  have hn := List.rdropWhile_last_not p t hl
  rw [List.getLast?_eq_some_getLast hl, Option.mem_some] at hc
  rw [← hc]
  exact Bool.eq_false_iff.2 hn

/-- What is dropped is a stretch at the end. -/
theorem exists_dropTrailing (p : Char → Bool) (t : Text) :
    ∃ s, t = dropTrailing p t ++ s ∧ ∀ c ∈ s, p c = true :=
  ⟨_, List.rdropWhile_append_rtakeWhile.symm, fun _ => List.mem_rtakeWhile_imp⟩

theorem dropTrailing_append_of_ne_nil (h : dropTrailing p t ≠ []) :
    dropTrailing p (s ++ t) = s ++ dropTrailing p t := by
  obtain ⟨u, hu, hp⟩ := exists_dropTrailing p t
  conv_lhs => rw [hu, ← List.append_assoc, dropTrailing_append hp]
  refine dropTrailing_eq_self fun c hc => ?_
  rw [List.getLast?_append_of_ne_nil _ h] at hc
  exact last_dropTrailing p t c hc

/-- No blank at either edge. -/
structure IsTrimmed (t : Text) : Prop where
  head : ∀ c ∈ t.head?, isBlank c = false
  last : ∀ c ∈ t.getLast?, isBlank c = false

theorem isTrimmed_nil : IsTrimmed [] := ⟨by simp, by simp⟩

theorem trimStart_eq_self (h : ∀ c ∈ t.head?, isBlank c = false) : trimStart t = t := by
  cases t with
  | nil => rfl
  | cons c rest => simp [trimStart, h c (by simp)]

theorem trimEnd_eq_self (h : ∀ c ∈ t.getLast?, isBlank c = false) : trimEnd t = t :=
  dropTrailing_eq_self h

theorem IsTrimmed.trimStart_eq (h : IsTrimmed t) : trimStart t = t := trimStart_eq_self h.head

theorem IsTrimmed.trim_eq (h : IsTrimmed t) : trim t = t := by
  rw [trim, h.trimStart_eq, trimEnd_eq_self h.last]

theorem head_trimStart (t : Text) : ∀ c ∈ (trimStart t).head?, isBlank c = false := by
  intro c hc
  have h := List.head?_dropWhile_not isBlank t
  rw [trimStart, Option.mem_def] at hc
  rw [hc] at h
  simpa using h

theorem head?_trimEnd (h : trimEnd t ≠ []) : (trimEnd t).head? = t.head? := by
  obtain ⟨s, hs, -⟩ := exists_dropTrailing isBlank t
  conv_rhs => rw [hs]
  exact (List.head?_append_of_ne_nil _ h).symm

theorem isTrimmed_trim (t : Text) : IsTrimmed (trim t) := by
  refine ⟨fun c hc => ?_, last_dropTrailing isBlank _⟩
  have hne : trimEnd (trimStart t) ≠ [] := by
    intro hn
    rw [trim, hn] at hc
    simp at hc
  rw [trim, head?_trimEnd hne] at hc
  exact head_trimStart t c hc

theorem trimStart_append_of_blank (h : ∀ c ∈ s, isBlank c = true) :
    trimStart (s ++ t) = trimStart t :=
  List.dropWhile_append_of_pos h

theorem trimEnd_append_of_blank (h : ∀ c ∈ s, isBlank c = true) :
    trimEnd (t ++ s) = trimEnd t :=
  dropTrailing_append h

/-- Blanks around a trimmed text are all that trimming removes. -/
theorem IsTrimmed.trim_surrounded {before after : Text} (h : IsTrimmed t)
    (hb : ∀ c ∈ before, isBlank c = true) (ha : ∀ c ∈ after, isBlank c = true) :
    trim (before ++ t ++ after) = t := by
  rw [trim, List.append_assoc, trimStart_append_of_blank hb]
  cases t with
  | nil =>
    rw [List.nil_append, trimStart, List.dropWhile_eq_nil_iff.2 ha]
    rfl
  | cons c rest =>
    rw [trimStart_eq_self (by simpa using h.head), trimEnd_append_of_blank ha,
      trimEnd_eq_self h.last]

/-- What trimming removes are blanks before and after. -/
theorem exists_trim (t : Text) : ∃ before after, t = before ++ trim t ++ after ∧
    (∀ c ∈ before, isBlank c = true) ∧ ∀ c ∈ after, isBlank c = true := by
  obtain ⟨after, hafter, ha⟩ := exists_dropTrailing isBlank (trimStart t)
  refine ⟨t.takeWhile isBlank, after, ?_, fun c => List.mem_takeWhile_imp, ha⟩
  rw [List.append_assoc, show trim t ++ after = trimStart t from hafter.symm]
  exact List.takeWhile_append_dropWhile.symm

theorem trim_append_of_blank (h : ∀ c ∈ s, isBlank c = true) : trim (t ++ s) = trim t := by
  rw [trim, trim, trimStart, trimStart, List.dropWhile_append]
  split
  next hn =>
    rw [List.isEmpty_iff.1 hn, List.dropWhile_eq_nil_iff.2 h]
  next => exact trimEnd_append_of_blank h

theorem dropLast?_eq_none {c : Char} (h : t.getLast? ≠ some c) : dropLast? c t = none :=
  if_neg h

end StockFlow.Text
