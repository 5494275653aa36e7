import Mathlib.Data.List.DropRight
import StockFlow.Dialect.FunctionName
import StockFlow.Equation.Piece
import StockFlow.Unicode.Alphanumeric
import StockFlow.Unicode.CaseFold

/-! How the classes of characters lie with respect to each other: a blank is no part of a name, and
upper case neither moves a blank or a mark nor makes one. The classes are tables, so each fact is
one comparison of ranges. -/
namespace StockFlow

namespace Unicode

namespace Ranges

theorem exists_of_contains {rs : Ranges} {n : Nat} (h : rs.contains n = true) :
    ∃ r ∈ rs, r.1 ≤ n ∧ n ≤ r.2 := by
  induction rs with
  | nil => simp [contains] at h
  | cons r rest ih =>
    obtain ⟨first, last⟩ := r
    simp only [contains] at h
    split at h
    · simp at h
    next hf =>
      split at h
      next hl => exact ⟨_, .head _, Nat.le_of_not_lt hf, hl⟩
      next hl =>
        obtain ⟨r, hr, hn⟩ := ih h
        exact ⟨r, .tail _ hr, hn⟩

/-- Whether the set holds nothing of `r`, by the search that `contains` makes. The comparisons are
boolean, which makes the search through a long table fast to check. -/
def misses : Ranges → Nat × Nat → Bool
  | [], _ => true
  | s :: rest, r =>
    bif Nat.blt r.2 s.1 then true else bif Nat.blt s.2 r.1 then misses rest r else false

theorem not_contains_of_misses {rs : Ranges} {r : Nat × Nat} (h : rs.misses r = true) {n : Nat}
    (h₁ : r.1 ≤ n) (h₂ : n ≤ r.2) : rs.contains n = false := by
  induction rs with
  | nil => rfl
  | cons s rest ih =>
    simp only [misses, Bool.cond_eq_ite, Nat.blt_eq] at h
    simp only [contains]
    split at h
    · rw [if_pos (by omega)]
    · split at h
      next hl => rw [ih h, if_neg (by omega : ¬ n ≤ s.2), ite_self]
      · simp at h

theorem misses_self (rs : Ranges) (n : Nat) : rs.misses (n, n) = !rs.contains n := by
  induction rs with
  | nil => rfl
  | cons s rest ih =>
    simp only [misses, contains, Bool.cond_eq_ite, Nat.blt_eq, ih]
    split
    · rfl
    · by_cases hl : s.2 < n
      · rw [if_pos hl, if_neg (Nat.not_le.2 hl)]
      · rw [if_neg hl, if_pos (Nat.not_lt.1 hl)]
        rfl

/-- No range of one set meets a range of the other. -/
def apart (rs ss : Ranges) : Bool := rs.all ss.misses

theorem not_contains_of_mem {rs ss : Ranges} (h : rs.apart ss = true) {r : Nat × Nat}
    (hr : r ∈ rs) {n : Nat} (h₁ : r.1 ≤ n) (h₂ : n ≤ r.2) : ss.contains n = false :=
  not_contains_of_misses (List.all_eq_true.1 h r hr) h₁ h₂

theorem not_contains_of_apart {rs ss : Ranges} (h : rs.apart ss = true) {n : Nat}
    (hn : rs.contains n = true) : ss.contains n = false := by
  obtain ⟨r, hr, h₁, h₂⟩ := exists_of_contains hn
  exact not_contains_of_mem h hr h₁ h₂

/-- Every code point of a set, for sets that are small. -/
def members (rs : Ranges) : List Nat := rs.flatMap fun r => List.range' r.1 (r.2 + 1 - r.1)

theorem mem_members_of_contains {rs : Ranges} {n : Nat} (h : rs.contains n = true) :
    n ∈ rs.members := by
  obtain ⟨r, hr, h₁, h₂⟩ := exists_of_contains h
  refine List.mem_flatMap.2 ⟨r, hr, ?_⟩
  rw [List.mem_range'_1]
  omega

end Ranges

/-- Characters that have no case: the blanks, and what is neither letter nor digit in the first 128
code points. No other character has one of them as its upper case. -/
def caseless : Ranges :=
  [(0x0, 0x40), (0x5B, 0x60), (0x7B, 0xB4), (0x1680, 0x1680), (0x2000, 0x200A), (0x2028, 0x202F),
    (0x205F, 0x205F), (0x3000, 0x3000)]

/-- The code points that a run moves, and those it moves them to. -/
def Run.domain (run : Run) : Nat × Nat := (run.first, run.last)

def Run.range (run : Run) : Nat × Nat := (run.image, run.image + (run.last - run.first))

theorem Runs.apply_move (runs : Runs) (n : Nat) :
    runs.apply n = n ∨ ∃ run ∈ runs, run.move? n = some (runs.apply n) := by
  unfold Runs.apply
  cases h : runs.findSome? fun run => run.move? n with
  | none => exact .inl rfl
  | some m => exact .inr (List.exists_of_findSome?_eq_some h)

theorem Run.move?_eq_some {run : Run} {n m : Nat} (h : run.move? n = some m) :
    run.first ≤ n ∧ n ≤ run.last ∧ run.range.1 ≤ m ∧ m ≤ run.range.2 := by
  simp only [Run.move?] at h
  split at h
  next hn =>
    obtain rfl := Option.some.inj h
    refine ⟨hn.1, hn.2.1, ?_⟩
    simp only [Run.range]
    omega
  · simp at h

theorem Runs.apply_cases (runs : Runs) (n : Nat) :
    runs.apply n = n ∨ ∃ run ∈ runs, run.first ≤ n ∧ n ≤ run.last ∧
      run.range.1 ≤ runs.apply n ∧ runs.apply n ≤ run.range.2 :=
  (runs.apply_move n).imp_right fun ⟨run, hr, hm⟩ => ⟨run, hr, Run.move?_eq_some hm⟩

/-- A code point is moved by the runs that start below it, if by any. -/
theorem Runs.apply_below (runs : Runs) {n bound : Nat} (h : n < bound) :
    runs.apply n = Runs.apply (runs.filter fun run => run.first < bound) n := by
  unfold Runs.apply
  congr 1
  induction runs with
  | nil => rfl
  | cons run runs ih =>
    rw [List.filter_cons, List.findSome?_cons, ih]
    by_cases hb : run.first < bound
    · rw [if_pos (by simpa using hb), List.findSome?_cons]
    · have hmove : run.move? n = none := if_neg (by omega)
      rw [if_neg (by simpa using hb), hmove]

theorem upperRuns_apart :
    Ranges.apart (upperRuns.map Run.domain) caseless = true ∧
      Ranges.apart (upperRuns.map Run.range) caseless = true := by
  decide

theorem upperRuns_valid : (upperRuns.all fun run => run.range.2 < 0xD800 ∨
    0xDFFF < run.range.1 ∧ run.range.2 < 0x110000) = true := by
  decide

theorem upperExpansions_caseless : (upperExpansions.all fun e =>
    !caseless.contains e.1 && e.2.all fun m => m < 0xD800 && !caseless.contains m) = true := by
  decide

theorem toNat_ofNat {n : Nat} (h : n.isValidChar) : (Char.ofNat n).toNat = n := by
  rw [Char.ofNat, dif_pos h]
  rfl

theorem mem_of_lookup {e : List (Nat × List Nat)} {n : Nat} {codes : List Nat}
    (h : e.lookup n = some codes) : (n, codes) ∈ e := by
  obtain ⟨l₁, l₂, rfl, -⟩ := List.lookup_eq_some_iff.1 h
  simp

/-- A caseless character stays as it is. -/
theorem upperCase_of_caseless {c : Char} (h : caseless.contains c.toNat = true) :
    upperCase c = [c] := by
  unfold upperCase
  have hl : upperExpansions.lookup c.toNat = none := by
    rw [List.lookup_eq_none_iff]
    intro e he
    have := List.all_eq_true.1 upperExpansions_caseless e he
    simp only [Bool.and_eq_true, Bool.not_eq_true'] at this
    rw [bne_iff_ne]
    intro hc
    rw [hc, this.1] at h
    simp at h
  have ha : upperRuns.apply c.toNat = c.toNat := by
    rcases upperRuns.apply_cases c.toNat with ha | ⟨run, hr, h₁, h₂, -, -⟩
    · exact ha
    · have := Ranges.not_contains_of_mem upperRuns_apart.1 (List.mem_map_of_mem hr) h₁ h₂
      simp [this] at h
  rw [hl]
  simp [ha]

/-- A caseless character is the upper case of itself only. -/
theorem eq_of_mem_upperCase {c x : Char} (h : x ∈ upperCase c)
    (hx : caseless.contains x.toNat = true) : x = c := by
  unfold upperCase at h
  split at h
  next codes hl =>
    obtain ⟨m, hm, rfl⟩ := List.mem_map.1 h
    have he := List.all_eq_true.1 upperExpansions_caseless _ (mem_of_lookup hl)
    simp only [Bool.and_eq_true, List.all_eq_true, decide_eq_true_eq, Bool.not_eq_true'] at he
    obtain ⟨hv, hc⟩ := he.2 m hm
    rw [toNat_ofNat (.inl hv), hc] at hx
    simp at hx
  next =>
    obtain rfl := List.mem_singleton.1 h
    rcases upperRuns.apply_cases c.toNat with ha | ⟨run, hr, -, -, h₁, h₂⟩
    · simp [ha]
    · have hv := List.all_eq_true.1 upperRuns_valid run hr
      simp only [decide_eq_true_eq] at hv
      rw [toNat_ofNat (by unfold Nat.isValidChar; omega)] at hx
      have := Ranges.not_contains_of_mem upperRuns_apart.2 (List.mem_map_of_mem hr) h₁ h₂
      simp [this] at hx

theorem upperCase_ne_nil (c : Char) : upperCase c ≠ [] := by
  unfold upperCase
  split
  next codes hl =>
    have hn : (upperExpansions.all fun e => !e.2.isEmpty) = true := by decide
    have := List.all_eq_true.1 hn _ (mem_of_lookup hl)
    simpa using this
  next => simp

theorem upperCase_ascii {c : Char} (h : c.toNat < 128) : upperCase c = [c.toUpper] := by
  have hruns : (upperRuns.filter fun run => run.first < 128) = [⟨0x61, 0x7A, 1, 0x41⟩] := rfl
  have hall : ∀ n < 128, Char.ofNat (Runs.apply [⟨0x61, 0x7A, 1, 0x41⟩] n) =
      (Char.ofNat n).toUpper := by
    decide
  have hexpansions : ∀ e ∈ upperExpansions, 128 ≤ e.1 := by decide
  have hlookup : upperExpansions.lookup c.toNat = none := by
    rw [List.lookup_eq_none_iff]
    intro e he
    have hle := hexpansions e he
    simp
    omega
  have hc := hall _ h
  rw [Char.ofNat_toNat] at hc
  rw [upperCase, hlookup, Runs.apply_below upperRuns h, hruns, hc]

theorem fold_ascii {c : Char} (h : c.toNat < 128) : fold c = c.toLower.toNat := by
  have hruns : (foldRuns.filter fun run => run.first < 128) = [⟨0x41, 0x5A, 1, 0x61⟩] := rfl
  have hall : ∀ n < 128, Runs.apply [⟨0x41, 0x5A, 1, 0x61⟩] n = (Char.ofNat n).toLower.toNat := by
    decide
  rw [fold, Runs.apply_below foldRuns h, hruns, hall _ h, Char.ofNat_toNat]

theorem foldRuns_apart :
    Ranges.apart (foldRuns.map Run.domain) caseless = true ∧
      Ranges.apart (foldRuns.map Run.range) caseless = true := by
  decide

/-- A caseless character folds to itself, and nothing else folds to it. -/
theorem eq_of_sameFold {c d : Char} (h : sameFold d c = true)
    (hc : caseless.contains c.toNat = true) : d = c := by
  have hfold : fold d = fold c := by simpa [sameFold] using h
  have hcaseless {e : Char} (he : caseless.contains (fold e) = true) : fold e = e.toNat := by
    rcases foldRuns.apply_cases e.toNat with ha | ⟨run, hr, -, -, h₁, h₂⟩
    · exact ha
    · have := Ranges.not_contains_of_mem foldRuns_apart.2 (List.mem_map_of_mem hr) h₁ h₂
      rw [← fold, he] at this
      exact absurd this (by simp)
  have hc' : fold c = c.toNat := by
    rcases foldRuns.apply_cases c.toNat with ha | ⟨run, hr, h₁, h₂, -, -⟩
    · exact ha
    · have := Ranges.not_contains_of_mem foldRuns_apart.1 (List.mem_map_of_mem hr) h₁ h₂
      simp [hc] at this
  have hd : fold d = d.toNat := hcaseless (by rw [hfold, hc', hc])
  exact Char.toNat_inj.1 (by rw [← hd, hfold, hc'])

/-- A blank has no case. -/
theorem caseless_of_isBlank {c : Char} (h : isBlank c = true) :
    caseless.contains c.toNat = true := by
  have hb : (blanks.members.all fun n => caseless.contains n) = true := by decide
  exact List.all_eq_true.1 hb _ (Ranges.mem_members_of_contains h)

/-- The ranges are not empty and stand in order. -/
def Ranges.Increases (rs : Ranges) : Prop := rs.IsChain fun r s => r.1 ≤ r.2 ∧ r.2 < s.1

instance (rs : Ranges) : Decidable rs.Increases := inferInstanceAs (Decidable (List.IsChain _ rs))

theorem Ranges.Increases.pairwise {rs : Ranges} (h : rs.Increases) :
    rs.Pairwise fun r s => r.1 ≤ r.2 ∧ r.2 < s.1 := by
  have htrans : IsTrans (Nat × Nat) fun r s => r.1 ≤ r.2 ∧ r.2 < s.1 :=
    ⟨fun r s t hrs hst => ⟨hrs.1, by omega⟩⟩
  exact List.isChain_iff_pairwise.1 h

theorem Ranges.contains_of_mem {rs : Ranges} (h : rs.Increases) {r : Nat × Nat} (hr : r ∈ rs)
    {n : Nat} (h₁ : r.1 ≤ n) (h₂ : n ≤ r.2) : rs.contains n = true := by
  replace h := h.pairwise
  induction rs with
  | nil => simp at hr
  | cons s rest ih =>
    obtain ⟨hs, h⟩ := List.pairwise_cons.1 h
    simp only [contains]
    rcases List.mem_cons.1 hr with rfl | hr
    · rw [if_neg (by omega), if_pos h₂]
    · have hlt := hs r hr
      rw [if_neg (by omega), if_neg (by omega), ih hr h]

/-- The runs whose domain is in no range of the set, of runs that stand in order. Runs that end
before a range does are compared with it, and the rest with the ranges after it. -/
def Ranges.uncovered : Ranges → Runs → Runs
  | [], runs => runs
  | r :: rest, runs =>
    let ends (run : Run) : Bool := Nat.ble run.last r.2
    (runs.takeWhile ends).filter (fun run => Nat.blt run.first r.1) ++
      uncovered rest (runs.dropWhile ends)

theorem Ranges.exists_or_mem_uncovered (rs : Ranges) {runs : Runs} {run : Run} (h : run ∈ runs) :
    (∃ r ∈ rs, r.1 ≤ run.first ∧ run.last ≤ r.2) ∨ run ∈ rs.uncovered runs := by
  induction rs generalizing runs with
  | nil => exact .inr h
  | cons r rest ih =>
    rw [uncovered]
    rw [← List.takeWhile_append_dropWhile (p := fun run => Nat.ble run.last r.2) (l := runs)] at h
    rcases List.mem_append.1 h with h | h
    · have hlast : run.last ≤ r.2 := by simpa using List.mem_takeWhile_imp h
      by_cases hfirst : r.1 ≤ run.first
      · exact .inl ⟨r, .head _, hfirst, hlast⟩
      · refine .inr (List.mem_append_left _ (List.mem_filter.2 ⟨h, ?_⟩))
        rw [Nat.blt_eq]
        omega
    · rcases ih h with ⟨s, hs, hin⟩ | h
      · exact .inl ⟨s, .tail _ hs, hin⟩
      · exact .inr (List.mem_append_right _ h)

/-- Whether all that a run moves into the set is in the set itself. -/
def Run.staysIn (rs : Ranges) (run : Run) : Bool :=
  rs.misses run.range || (Ranges.members [run.domain]).all fun n =>
    (run.move? n).all fun m => rs.misses (m, m) || !rs.misses (n, n)

theorem Run.contains_of_staysIn {rs : Ranges} {run : Run} (h : run.staysIn rs = true) {n m : Nat}
    (hm : run.move? n = some m) (hc : rs.contains m = true) : rs.contains n = true := by
  obtain ⟨h₁, h₂, h₃, h₄⟩ := Run.move?_eq_some hm
  simp only [Run.staysIn, Bool.or_eq_true, List.all_eq_true, Ranges.misses_self] at h
  rcases h with h | h
  · have hnot := Ranges.not_contains_of_misses h h₃ h₄
    simp [hc] at hnot
  · have hmem : n ∈ Ranges.members [run.domain] :=
      Ranges.mem_members_of_contains (by simp [Ranges.contains, Run.domain, Nat.not_lt.2 h₁, h₂])
    have hn := h n hmem
    simpa [hm, hc] using hn

/-- A table of characters in names: its ranges stand in order, it has no blank, and what a run moves
into it is in the table itself, or is one of the marks. Only the few runs that lead into it from
elsewhere are looked at one by one. -/
def Ranges.IsOfNames (rs marks : Ranges) : Prop :=
  rs.Increases ∧ blanks.apart rs = true ∧
    ((rs.uncovered upperRuns).all fun run =>
      marks.elem run.domain || run.staysIn rs) = true

instance (rs marks : Ranges) : Decidable (rs.IsOfNames marks) := inferInstanceAs (Decidable (_ ∧ _))

set_option maxRecDepth 4000 in
theorem identifiers_isOfNames : identifierContinues.IsOfNames [] ∧
    identifierStarts.IsOfNames [(0x345, 0x345)] := by
  decide +kernel

/-- What a character of names is the upper case of is one, or a mark. -/
theorem Ranges.IsOfNames.contains_of_move {rs marks : Ranges} (h : rs.IsOfNames marks) {run : Run}
    (hr : run ∈ upperRuns) {n m : Nat} (hm : run.move? n = some m) (hc : rs.contains m = true)
    (hn : ∀ mark ∈ marks, n < mark.1 ∨ mark.2 < n) : rs.contains n = true := by
  obtain ⟨hincreases, -, hstays⟩ := h
  obtain ⟨h₁, h₂, -, -⟩ := Run.move?_eq_some hm
  rcases rs.exists_or_mem_uncovered hr with ⟨r, hr, hfirst, hlast⟩ | hr
  · exact contains_of_mem hincreases hr (by omega) (by omega)
  · have hrun := List.all_eq_true.1 hstays run hr
    rw [Bool.or_eq_true, List.elem_iff] at hrun
    refine Run.contains_of_staysIn (hrun.resolve_left fun hmark => ?_) hm hc
    have houtside : n < run.first ∨ run.last < n := hn _ hmark
    omega

/-- A character whose upper case is one character is moved by a run, or stays as it is. -/
theorem upperCase_singleton {c u : Char} (h : upperCase c = [u]) :
    u = c ∨ ∃ run ∈ upperRuns, run.move? c.toNat = some u.toNat := by
  have hlong : (upperExpansions.all fun e => decide (2 ≤ e.2.length)) = true := by decide
  unfold upperCase at h
  split at h
  next codes hl =>
    have hcodes := List.all_eq_true.1 hlong _ (mem_of_lookup hl)
    have hone := congrArg List.length h
    rw [List.length_map, List.length_singleton] at hone
    simp [hone] at hcodes
  next =>
    obtain rfl := List.singleton_inj.1 h
    refine (upperRuns.apply_move c.toNat).imp (fun ha => by simp [ha]) fun ⟨run, hr, hm⟩ => ?_
    refine ⟨run, hr, ?_⟩
    obtain ⟨-, -, h₃, h₄⟩ := Run.move?_eq_some hm
    have hv := List.all_eq_true.1 upperRuns_valid run hr
    simp only [decide_eq_true_eq] at hv
    rw [hm, toNat_ofNat (by unfold Nat.isValidChar; omega)]

end Unicode

namespace Piece

open Unicode

/-- What has its upper case in names can stand in names. -/
theorem isNameContinue_of_upperCase {c u : Char} (h : upperCase c = [u])
    (hu : isNameContinue u = true) : isNameContinue c = true := by
  have hmark (d : Char) (hd : caseless.contains d.toNat = true) (hud : u = d) : u = c :=
    Unicode.eq_of_mem_upperCase (by simp [h]) (hud ▸ hd)
  by_cases heq : u = c
  · rwa [← heq]
  · obtain ⟨run, hr, hm⟩ := (upperCase_singleton h).resolve_left heq
    have hi : isIdentifierContinue u = true := by
      simp only [isNameContinue, Bool.or_eq_true, beq_iff_eq] at hu
      rcases hu with ((((hu | hu) | hu) | hu) | hu) | hu
      · exact hu
      all_goals exact absurd (hmark _ (by decide) hu) heq
    have hc : isIdentifierContinue c = true :=
      identifiers_isOfNames.1.contains_of_move hr hm hi (by simp)
    simp [isNameContinue, hc]

/-- What has its upper case at the start of names can start names, except for one mark that combines
with letters and has a letter for its upper case. -/
theorem isNameStart_of_upperCase {c u : Char} (h : upperCase c = [u])
    (hu : isNameStart u = true) (hc : c ≠ '\u0345') : isNameStart c = true := by
  by_cases heq : u = c
  · rwa [← heq]
  · obtain ⟨run, hr, hm⟩ := (upperCase_singleton h).resolve_left heq
    have hi : isIdentifierStart u = true := by
      simp only [isNameStart, Bool.or_eq_true, beq_iff_eq] at hu
      refine hu.resolve_right fun hu => heq ?_
      exact Unicode.eq_of_mem_upperCase (by simp [h]) (by rw [hu]; decide)
    have hs : isIdentifierStart c = true := by
      have hmark : c.toNat ≠ 0x345 := fun hn => hc (Char.toNat_inj.1 hn)
      refine identifiers_isOfNames.2.contains_of_move hr hm hi fun mark hin => ?_
      obtain rfl := List.mem_singleton.1 hin
      exact Nat.lt_or_gt_of_ne hmark
    simp [isNameStart, hs]

/-- No blank starts a name or stands inside one, spaces and tabs aside. -/
theorem not_isNameContinue_of_isBlank {c : Char} (h : isBlank c = true) :
    isNameContinue c = false := by
  have hx : isIdentifierContinue c = false :=
    Ranges.not_contains_of_apart identifiers_isOfNames.1.2.1 h
  have hm : (['_', '$', '\'', '&', '%'].all fun d => !isBlank d) = true := by decide
  have hne (d : Char) (hd : d ∈ ['_', '$', '\'', '&', '%']) : c ≠ d := by
    rintro rfl
    simpa [h] using List.all_eq_true.1 hm c hd
  simp [isNameContinue, hx, hne]

theorem not_isBlank_of_isNameContinue {c : Char} (h : isNameContinue c = true) :
    isBlank c = false := by
  by_contra hb
  simp [not_isNameContinue_of_isBlank (by simpa using hb)] at h

theorem not_isNameStart_of_isBlank {c : Char} (h : isBlank c = true) : isNameStart c = false := by
  have hx : isIdentifierStart c = false :=
    Ranges.not_contains_of_apart identifiers_isOfNames.2.2.1 h
  have hu : isBlank '_' = false := by decide
  have hne : c ≠ '_' := by
    rintro rfl
    simp [h] at hu
  simp [isNameStart, hx, hne]

theorem contains_of_isDigit {c : Char} (h : c.isDigit = true) :
    Ranges.contains [(0x30, 0x39)] c.toNat = true := by
  simp only [Char.isDigit, Bool.and_eq_true, decide_eq_true_eq, UInt32.le_iff_toNat_le] at h
  have : ¬ c.toNat < 0x30 := Nat.not_lt.2 h.1
  have : c.toNat ≤ 0x39 := h.2
  simp [Ranges.contains, *]

theorem not_isBlank_of_isDigit {c : Char} (h : c.isDigit = true) : isBlank c = false :=
  Ranges.not_contains_of_apart (by decide : Ranges.apart _ blanks = true)
    (contains_of_isDigit h)

theorem not_isNameStart_of_isDigit {c : Char} (h : c.isDigit = true) : isNameStart c = false := by
  have hx : isIdentifierStart c = false :=
    Ranges.not_contains_of_apart (by decide : Ranges.apart _ identifierStarts = true)
      (contains_of_isDigit h)
  have hne : c ≠ '_' := by
    rintro rfl
    simp at h
  simp [isNameStart, hx, hne]

end Piece

end StockFlow
