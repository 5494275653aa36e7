import StockFlow.Dialect.Basic
import StockFlow.Proofs.Spellings

/-! The spelling by which function names are compared. One pass over a name, which only remembers
whether a space is due, gives the words of the name in upper case with one space between them. The
upper case of a character is made of characters that are their own upper case, as the tables show,
so a spelling is its own spelling, and a dialect takes a name and its spelling for one function. -/
namespace StockFlow

/-! ### Characters that are their own upper case -/

namespace Unicode

/-- Whether none of what `other` gives is moved by `run`, although it lies in the stretch that `run`
works on: `run` moves every second code point there, and `other` gives those between. -/
def Run.interleaves (run other : Run) : Bool :=
  Nat.beq run.step 2 && (Nat.beq other.step 2 || Nat.beq other.first other.last) &&
    Nat.beq ((other.image + run.first) % 2) 1

/-- Whether none of what `other` gives is moved by one of the runs, which stand in order. -/
def Runs.spare : Runs → Run → Bool
  | [], _ => true
  | run :: rest, other =>
    bif Nat.blt other.range.2 run.first then true
    else bif Nat.blt run.last other.range.1 then Runs.spare rest other
    else run.interleaves other && Runs.spare rest other

theorem Run.move?_of_interleaves {run other : Run} (h : run.interleaves other = true) {n m : Nat}
    (hm : other.move? n = some m) : run.move? m = none := by
  simp only [interleaves, Bool.and_eq_true, Bool.or_eq_true, Nat.beq_eq] at h
  obtain ⟨⟨hstep, hevery⟩, hodd⟩ := h
  simp only [move?] at hm
  split at hm
  next hn =>
    obtain rfl := Option.some.inj hm
    obtain ⟨h₁, h₂, hmod⟩ := hn
    have heven : (n - other.first) % 2 = 0 := by
      rcases hevery with htwo | hone
      · rwa [htwo] at hmod
      · omega
    refine if_neg ?_
    rw [hstep]
    omega
  · simp at hm

theorem Runs.move?_of_spare {runs : Runs} {other : Run}
    (hincreases : Ranges.Increases (runs.map Run.domain)) (h : runs.spare other = true) {n m : Nat}
    (hm : other.move? n = some m) : ∀ run ∈ runs, run.move? m = none := by
  obtain ⟨-, -, hlow, hhigh⟩ := Run.move?_eq_some hm
  replace hincreases := List.pairwise_map.1 hincreases.pairwise
  induction runs with
  | nil => simp
  | cons run rest ih =>
    obtain ⟨hrun, hrest⟩ := List.pairwise_cons.1 hincreases
    simp only [spare, Bool.cond_eq_ite, Nat.blt_eq] at h
    split at h
    next hbelow =>
      refine List.forall_mem_cons.2 ⟨if_neg (by omega), fun r hr => if_neg ?_⟩
      have hlater := hrun r hr
      simp only [Run.domain] at hlater
      omega
    · split at h
      next habove => exact List.forall_mem_cons.2 ⟨if_neg (by omega), ih h hrest⟩
      · rw [Bool.and_eq_true] at h
        exact List.forall_mem_cons.2 ⟨Run.move?_of_interleaves h.1 hm, ih h.2 hrest⟩

set_option maxRecDepth 4000 in
theorem upperRuns_spare : Ranges.Increases (upperRuns.map Run.domain) ∧
    (upperRuns.all upperRuns.spare) = true := by
  decide

/-- Code points among which are all those with a longer upper case. -/
def expanding : Ranges :=
  [(0xDF, 0xDF), (0x149, 0x149), (0x1F0, 0x1F0), (0x390, 0x390), (0x3B0, 0x3B0), (0x587, 0x587),
    (0x1E96, 0x1E9A), (0x1F50, 0x1F56), (0x1F80, 0x1FB7), (0x1FBC, 0x1FC7), (0x1FCC, 0x1FD7),
    (0x1FE2, 0x1FE7), (0x1FF2, 0x1FF7), (0x1FFC, 0x1FFC), (0xFB00, 0xFB17)]

/-- Code points among which are all those that longer upper cases are made of. -/
def capitals : Ranges :=
  [(0x41, 0x59), (0x2BC, 0x342), (0x386, 0x38F), (0x391, 0x3A9), (0x535, 0x552),
    (0x1F08, 0x1F0F), (0x1F28, 0x1F2F), (0x1F68, 0x1F6F), (0x1FBA, 0x1FBA), (0x1FCA, 0x1FCA),
    (0x1FFA, 0x1FFA)]

theorem upperExpansions_capitals : (upperExpansions.all fun e =>
    expanding.contains e.1 && e.2.all fun m => m < 0xD800 && capitals.contains m) = true := by
  decide

theorem capitals_apart : Ranges.apart (upperRuns.map Run.domain) capitals = true ∧
    Ranges.apart (upperRuns.map Run.range) expanding = true ∧
    capitals.apart expanding = true := by
  decide

/-- What no run moves and no longer upper case is listed for is its own upper case. -/
theorem upperCase_eq_self {c : Char} (he : expanding.contains c.toNat = false)
    (hr : ∀ run ∈ upperRuns, run.move? c.toNat = none) : upperCase c = [c] := by
  have hlookup : upperExpansions.lookup c.toNat = none := by
    rw [List.lookup_eq_none_iff]
    intro e hmem
    have hin := List.all_eq_true.1 upperExpansions_capitals e hmem
    rw [Bool.and_eq_true] at hin
    rw [bne_iff_ne]
    intro hc
    rw [hc, hin.1] at he
    exact Bool.noConfusion he
  have happly : upperRuns.apply c.toNat = c.toNat := by
    rw [Runs.apply, List.findSome?_eq_none_iff.2 hr, Option.getD_none]
  rw [upperCase, hlookup, happly, Char.ofNat_toNat]

/-- The upper case of a character is made of characters that are their own upper case. -/
theorem upperCase_of_mem {c x : Char} (h : x ∈ upperCase c) : upperCase x = [x] := by
  obtain ⟨hdomains, hranges, hcapitals⟩ := capitals_apart
  unfold upperCase at h
  split at h
  next codes hl =>
    obtain ⟨m, hm, rfl⟩ := List.mem_map.1 h
    have he := List.all_eq_true.1 upperExpansions_capitals _ (mem_of_lookup hl)
    simp only [Bool.and_eq_true, List.all_eq_true, decide_eq_true_eq] at he
    obtain ⟨hv, hc⟩ := he.2 m hm
    have hcode : (Char.ofNat m).toNat = m := toNat_ofNat (.inl hv)
    rw [← hcode] at hc
    refine upperCase_eq_self (Ranges.not_contains_of_apart hcapitals hc) fun run hr => ?_
    by_contra hmove
    obtain ⟨k, hk⟩ := Option.ne_none_iff_exists'.1 hmove
    obtain ⟨h₁, h₂, -, -⟩ := Run.move?_eq_some hk
    have hnot := Ranges.not_contains_of_mem hdomains (List.mem_map_of_mem hr) h₁ h₂
    simp [hc] at hnot
  next hl =>
    obtain rfl := List.mem_singleton.1 h
    rcases upperRuns.apply_move c.toNat with ha | ⟨run, hr, hm⟩
    · rw [ha, Char.ofNat_toNat]
      simp only [upperCase, hl, ha, Char.ofNat_toNat]
    · obtain ⟨-, -, h₃, h₄⟩ := Run.move?_eq_some hm
      have hv := List.all_eq_true.1 upperRuns_valid run hr
      simp only [decide_eq_true_eq] at hv
      have hcode := toNat_ofNat (n := upperRuns.apply c.toNat) (by unfold Nat.isValidChar; omega)
      refine upperCase_eq_self ?_ ?_
      · rw [hcode]
        exact Ranges.not_contains_of_mem hranges (List.mem_map_of_mem hr) h₃ h₄
      · rw [hcode]
        obtain ⟨hincreases, hspare⟩ := upperRuns_spare
        exact Runs.move?_of_spare hincreases (List.all_eq_true.1 hspare run hr) hm

end Unicode

open Unicode (upperCase)

/-! ### The words of a name -/

/-- The words between the separators of a name, in upper case. -/
def functionWords (name : Text) : List Text :=
  ((Text.split isNameSeparator name).filter fun word => !word.isEmpty).map
    fun word => word.flatMap upperCase

/-- Words with a space before each of them. -/
def spacedWords (words : List Text) : Text := words.flatMap fun word => ' ' :: word

theorem joinWith_cons (word : Text) (words : List Text) :
    Text.joinWith " " (word :: words) = word ++ spacedWords words := by
  induction words generalizing word with
  | nil => simp [Text.joinWith, spacedWords]
  | cons next words ih =>
    have hnext := ih next
    rw [Text.joinWith] at hnext ⊢
    rw [List.intercalate_cons_cons, hnext]
    simp [spacedWords]

theorem functionWords_separator {c : Char} (h : isNameSeparator c = true) (t : Text) :
    functionWords (c :: t) = functionWords t := by
  simp [functionWords, Text.split, Text.cut, h]

/-- What is left of a name inside a word: the rest of the word, then other words. -/
theorem canonicalFrom_inside (t : Text) : canonicalFrom true false t =
      (Text.cut isNameSeparator t).1.flatMap upperCase ++
        spacedWords ((((Text.cut isNameSeparator t).2).filter fun word => !word.isEmpty).map
          fun word => word.flatMap upperCase) ∧
    canonicalFrom true true t = spacedWords (functionWords t) := by
  induction t with
  | nil => exact ⟨rfl, rfl⟩
  | cons c rest ih =>
    obtain ⟨hinside, hdue⟩ := ih
    by_cases hc : isNameSeparator c = true
    · rw [canonicalFrom_separator hc, canonicalFrom_separator hc, hdue, functionWords_separator hc]
      exact ⟨by simp [Text.cut, hc, functionWords, Text.split], rfl⟩
    · have hc : isNameSeparator c = false := by simpa using hc
      rw [canonicalFrom_letter hc, canonicalFrom_letter hc, hinside]
      simp [Text.cut, hc, functionWords, Text.split, spacedWords]

theorem canonicalName_eq_joinWith (name : Text) :
    canonicalName name = Text.joinWith " " (functionWords name) := by
  induction name with
  | nil => rfl
  | cons c rest ih =>
    by_cases hc : isNameSeparator c = true
    · rw [functionWords_separator hc, ← ih]
      exact canonicalFrom_separator hc rest
    · have hc : isNameSeparator c = false := by simpa using hc
      rw [canonicalName, canonicalFrom_letter hc, (canonicalFrom_inside rest).1]
      simp [functionWords, Text.split, Text.cut, hc, joinWith_cons]

/-! ### Names that are spelled so already -/

/-- Inside a name nothing changes if it has single spaces and letters that are their own upper
case. -/
theorem canonicalFrom_eq_self {name : Text} (h : IsSpaced name)
    (hsep : ∀ c ∈ name, isNameSeparator c = true → c = ' ')
    (hupper : ∀ c ∈ name, upperCase c = [c]) : canonicalFrom true false name = name := by
  have hletter {c : Char} (hne : c ≠ ' ') (hs : isNameSeparator c = true → c = ' ') :
      isNameSeparator c = false := by
    by_contra hc
    exact hne (hs (by simpa using hc))
  induction h with
  | nil => rfl
  | @letter d name hd _ ih =>
    obtain ⟨hs, hsep⟩ := List.forall_mem_cons.1 hsep
    obtain ⟨hu, hupper⟩ := List.forall_mem_cons.1 hupper
    rw [canonicalFrom_letter (hletter hd hs), hu, ih hsep hupper]
    rfl
  | @space d name hd _ ih =>
    obtain ⟨-, hsep⟩ := List.forall_mem_cons.1 hsep
    obtain ⟨-, hupper⟩ := List.forall_mem_cons.1 hupper
    have hd := hletter hd (hsep d (.head _))
    have hword := ih hsep hupper
    rw [canonicalFrom_letter hd] at hword
    rw [canonicalFrom_separator (by decide), canonicalFrom_letter hd, ← hword]
    simp

theorem canonicalName_canonicalName (name : Text) :
    canonicalName (canonicalName name) = canonicalName name := by
  rw [canonicalName_eq_canonicalFrom (not_isNameSeparator_head_canonicalName name)]
  refine canonicalFrom_eq_self (isSpaced_canonicalFrom false false name) ?_ ?_
  · exact fun c => eq_space_of_mem_canonicalFrom
  · intro c hc
    rcases mem_canonicalFrom hc with rfl | ⟨x, -, -, hcx⟩
    · exact Unicode.upperCase_of_caseless (by decide)
    · exact Unicode.upperCase_of_mem hcx

/-- The spelling by which a function name is compared has the words between spaces, underscores, tabs
and line breaks, in upper case and joined with single spaces. Spelling it so again changes nothing,
and no dialect tells a name from its spelling. -/
theorem canonicalName_of_words (name : Text) :
    canonicalName name = Text.joinWith " "
        (((Text.split (fun c => decide (c ∈ [' ', '_', '\t', '\n', '\r'])) name).filter
          fun word => !word.isEmpty).map fun word => word.flatMap upperCase) ∧
      canonicalName (canonicalName name) = canonicalName name ∧
      ∀ d : Dialect, d.hasFunction (canonicalName name) = d.hasFunction name := by
  have hsep : isNameSeparator = fun c => decide (c ∈ [' ', '_', '\t', '\n', '\r']) :=
    funext fun c => Bool.eq_iff_iff.2 (isNameSeparator_iff.trans decide_eq_true_iff.symm)
  refine ⟨?_, canonicalName_canonicalName name, fun d => ?_⟩
  · rw [canonicalName_eq_joinWith, functionWords, hsep]
  rw [Dialect.hasFunction, Dialect.hasFunction, canonicalName_canonicalName]

/-- A letter whose upper case is several letters, among separators of each kind. -/
example : canonicalName "_gro\u00DFe \t flut\n".toList = "GROSSE FLUT".toList := by cbv

end StockFlow
