import StockFlow.Proofs.Scanning
import StockFlow.Proofs.Unedited

/-! Where a text first differs from another. When a model is not written as a given source, the report
names the first line in which the two differ. One of them may have no such line, but no line of a
text is empty, so the lines that the report quotes differ, and so do their quoted forms. -/
namespace StockFlow

/-! ### Quoted lines -/

theorem digitChar_inj {a b : Nat} (ha : a < 16) (hb : b < 16) (h : a.digitChar = b.digitChar) :
    a = b := by
  have hall : ∀ a < 16, ∀ b < 16, a.digitChar = b.digitChar → a = b := by decide
  exact hall a ha b hb h

theorem toDigits_inj {m n : Nat} (h : Nat.toDigits 16 m = Nat.toDigits 16 n) : m = n := by
  induction m using Nat.strong_induction_on generalizing n with
  | _ m ih =>
    rcases Nat.lt_or_ge m 16 with hm | hm <;> rcases Nat.lt_or_ge n 16 with hn | hn
    · rw [Nat.toDigits_of_lt_base hm, Nat.toDigits_of_lt_base hn] at h
      exact digitChar_inj hm hn (List.singleton_inj.1 h)
    · rw [Nat.toDigits_of_lt_base hm, Nat.toDigits_of_base_le (by decide) hn] at h
      simp [List.singleton_eq_append_iff] at h
    · rw [Nat.toDigits_of_lt_base hn, Nat.toDigits_of_base_le (by decide) hm] at h
      simp [List.append_eq_singleton_iff] at h
    · rw [Nat.toDigits_of_base_le (by decide) hm, Nat.toDigits_of_base_le (by decide) hn] at h
      obtain ⟨hinit, hlast⟩ := List.append_inj' h rfl
      have hdiv : m / 16 = n / 16 := ih (m / 16) (by omega) hinit
      have hmod : m % 16 = n % 16 :=
        digitChar_inj (Nat.mod_lt _ (by decide)) (Nat.mod_lt _ (by decide))
          (List.singleton_inj.1 hlast)
      omega

theorem closing_not_mem_toDigits (n : Nat) : '\x7d' ∉ Nat.toDigits 16 n := by
  have hdigit : ∀ a < 16, '\x7d' ≠ a.digitChar := by decide
  induction n using Nat.strong_induction_on with
  | _ n ih =>
    rcases Nat.lt_or_ge n 16 with hn | hn
    · rw [Nat.toDigits_of_lt_base hn, List.mem_singleton]
      exact hdigit n hn
    · rw [Nat.toDigits_of_base_le (by decide) hn, List.mem_append, List.mem_singleton]
      exact not_or.2 ⟨ih (n / 16) (by omega), hdigit _ (Nat.mod_lt _ (by decide))⟩

namespace Text

/-- The characters with an escape of their own, each with the letter that stands for it. -/
def lettered : List (Char × Char) :=
  [('\x00', '0'), ('\t', 't'), ('\n', 'n'), ('\r', 'r'), ('"', '"'), ('\\', '\\')]

theorem escape_cases (c : Char) :
    (c ≠ '\\' ∧ escape c = [c]) ∨
    (∃ letter, (c, letter) ∈ lettered ∧ escape c = ['\\', letter]) ∨
    escape c = '\\' :: 'u' :: '\x7b' :: (Nat.toDigits 16 c.toNat ++ ['\x7d']) := by
  unfold escape
  split
  · exact .inr (.inl ⟨'0', by simp [lettered], rfl⟩)
  · exact .inr (.inl ⟨'t', by simp [lettered], rfl⟩)
  · exact .inr (.inl ⟨'n', by simp [lettered], rfl⟩)
  · exact .inr (.inl ⟨'r', by simp [lettered], rfl⟩)
  · exact .inr (.inl ⟨'"', by simp [lettered], rfl⟩)
  · exact .inr (.inl ⟨'\\', by simp [lettered], rfl⟩)
  next hbackslash =>
    split
    · exact .inl ⟨hbackslash, rfl⟩
    · exact .inr (.inr (by simp))

theorem lettered_inj {c d letter : Char} (hc : (c, letter) ∈ lettered)
    (hd : (d, letter) ∈ lettered) : c = d := by
  have hall : ∀ p ∈ lettered, ∀ q ∈ lettered, p.2 = q.2 → p.1 = q.1 := by decide
  exact hall _ hc _ hd rfl

theorem ne_of_lettered {c letter : Char} (h : (c, letter) ∈ lettered) : letter ≠ 'u' := by
  have hall : ∀ p ∈ lettered, p.2 ≠ 'u' := by decide
  exact hall _ h

/-- The escape of a character tells where it ends, whatever follows. -/
theorem escape_append_inj {c d : Char} {s t : Text} (h : escape c ++ s = escape d ++ t) :
    c = d ∧ s = t := by
  rcases escape_cases c with ⟨hc, ec⟩ | ⟨x, hc, ec⟩ | ec <;>
    rcases escape_cases d with ⟨hd, ed⟩ | ⟨y, hd, ed⟩ | ed <;>
    rw [ec, ed] at h
  · simpa using h
  · simp [hc] at h
  · simp [hc] at h
  · simp [Ne.symm hd] at h
  · obtain ⟨rfl, rfl⟩ : x = y ∧ s = t := by simpa using h
    exact ⟨lettered_inj hc hd, rfl⟩
  · simp [ne_of_lettered hc] at h
  · simp [Ne.symm hd] at h
  · simp [Ne.symm (ne_of_lettered hd)] at h
  · have hdigits : Nat.toDigits 16 c.toNat ++ '\x7d' :: s =
        Nat.toDigits 16 d.toNat ++ '\x7d' :: t := by
      simpa using h
    have hbreak := congrArg (breakAt? '\x7d') hdigits
    rw [breakAt?_append_cons (closing_not_mem_toDigits _),
      breakAt?_append_cons (closing_not_mem_toDigits _)] at hbreak
    obtain ⟨hcode, rfl⟩ := Prod.mk.inj (Option.some.inj hbreak)
    exact ⟨Char.toNat_inj.1 (toDigits_inj hcode), rfl⟩

theorem escape_ne_nil (c : Char) : escape c ≠ [] := by
  rcases escape_cases c with ⟨-, h⟩ | ⟨x, -, h⟩ | h <;> simp [h]

theorem quoted_inj {s t : Text} (h : quoted s = quoted t) : s = t := by
  have hbody : s.flatMap escape = t.flatMap escape := by simpa [quoted] using h
  clear h
  induction s generalizing t with
  | nil =>
    cases t with
    | nil => rfl
    | cons d t => simp [escape_ne_nil] at hbody
  | cons c s ih =>
    cases t with
    | nil => simp [escape_ne_nil] at hbody
    | cons d t =>
      obtain ⟨rfl, hrest⟩ := escape_append_inj hbody
      rw [ih hrest]

theorem quoted_string_inj {s t : Text} (h : s.quoted.string = t.quoted.string) : s = t :=
  quoted_inj (String.ofList_injective h)

end Text

theorem LineSpan.label_single (k : Nat) : (LineSpan.mk k (k + 1)).label = s!"line {k + 1}" := by
  simp [LineSpan.label, LineSpan.size]

theorem Error.report_roundTripMismatch (k : Nat) (expected written : Text) :
    (roundTripMismatch k expected written).report = ⟨.model, .roundTripMismatch,
      some (s!"line {k + 1} differs: " ++
        s!"expected {expected.quoted.string}, wrote {written.quoted.string}")⟩ := by
  have hdetails : (roundTripMismatch k expected written).details =
      s!"{(LineSpan.mk k (k + 1)).label} differs: " ++
        s!"expected {expected.quoted.string}, wrote {written.quoted.string}" := rfl
  rw [report, hdetails, LineSpan.label_single]
  rfl

/-! ### The first difference -/

theorem Line.nil_not_mem_split (t : Text) : [] ∉ split t := by
  induction t with
  | nil => simp [split]
  | cons c rest ih =>
    rw [split]
    split
    · simpa using ih
    · split
      · simp
      next hs =>
        rw [hs] at ih
        exact fun h => (List.mem_cons.1 h).elim (by simp) fun h => ih (.tail _ h)

theorem Line.split_inj {s t : Text} (h : split s = split t) : s = t := by
  rw [← split_flatten s, h, split_flatten]

/-- Two lists of lines agree up to line `k`, counted from zero, and there they differ; one of them
may end before that line. -/
structure FirstDiffers (k : Nat) (ls rs : List Text) : Prop where
  agree : ∀ i < k, ls[i]? = rs[i]?
  differ : ls[k]? ≠ rs[k]?

theorem FirstDiffers.cons {k : Nat} {ls rs : List Text} (h : FirstDiffers k ls rs) (l : Text) :
    FirstDiffers (k + 1) (l :: ls) (l :: rs) := by
  refine ⟨fun i hi => ?_, by simpa using h.differ⟩
  cases i with
  | zero => rfl
  | succ i => simpa using h.agree i (by omega)

theorem FirstDiffers.exists_line {k : Nat} {ls rs : List Text} (h : FirstDiffers k ls rs) :
    k < ls.length ∨ k < rs.length := by
  by_contra hk
  rw [not_or, Nat.not_lt, Nat.not_lt] at hk
  exact h.differ (by rw [List.getElem?_eq_none hk.1, List.getElem?_eq_none hk.2])

/-- An empty line would be taken for one that is not there; texts have no empty lines. -/
theorem FirstDiffers.getD_ne {k : Nat} {ls rs : List Text} (h : FirstDiffers k ls rs)
    (hl : [] ∉ ls) (hr : [] ∉ rs) : ls[k]?.getD [] ≠ rs[k]?.getD [] := by
  have hsome {l : Text} {lines : List Text} (hn : [] ∉ lines) (hl : lines[k]? = some l) : l ≠ [] :=
    fun he => hn (he ▸ List.mem_of_getElem? hl)
  have hne := h.differ
  cases hlk : ls[k]? with
  | none =>
    cases hrk : rs[k]? with
    | none => exact absurd (hlk.trans hrk.symm) hne
    | some r => exact (hsome hr hrk).symm
  | some l =>
    cases hrk : rs[k]? with
    | none => exact hsome hl hlk
    | some r =>
      rw [hlk, hrk] at hne
      exact fun he => hne (congrArg some he)

namespace Model

theorem firstDifference_eq {ls rs : List Text} (h : ls ≠ rs) (index : Nat) :
    ∃ k, firstDifference index ls rs = (index + k, ls[k]?.getD [], rs[k]?.getD []) ∧
      FirstDiffers k ls rs := by
  induction ls generalizing rs index with
  | nil =>
    cases rs with
    | nil => exact absurd rfl h
    | cons r rs => exact ⟨0, by simp [firstDifference], by simp, by simp⟩
  | cons l ls ih =>
    cases rs with
    | nil => exact ⟨0, by simp [firstDifference], by simp, by simp⟩
    | cons r rs =>
      by_cases hlr : l = r
      · subst hlr
        obtain ⟨k, hk, hdiffers⟩ := ih (fun he => h (he ▸ rfl)) (index + 1)
        refine ⟨k + 1, ?_, hdiffers.cons l⟩
        rw [firstDifference, if_pos rfl, hk]
        simp only [List.getElem?_cons_succ, Nat.add_assoc, Nat.add_comm 1 k]
      · exact ⟨0, by simp [firstDifference, hlr], by simp, by simpa using hlr⟩

theorem checkText_of_text_ne {m : Model} {source : Text} (h : m.text ≠ source) :
    ∃ k, m.checkText source = .error (.roundTripMismatch k ((Line.split source)[k]?.getD [])
        ((Line.split m.text)[k]?.getD [])) ∧
      FirstDiffers k (Line.split source) (Line.split m.text) := by
  have hlines : Line.split source ≠ Line.split m.text := fun he => h (Line.split_inj he).symm
  obtain ⟨k, hk, hdiffers⟩ := firstDifference_eq hlines 0
  refine ⟨k, ?_, hdiffers⟩
  rw [checkText, if_neg h, hk, Nat.zero_add]

/-- A model passes for a source just when it is written as that source. If it is not, the report
names the first line, counted from one, in which the source and the written text differ: all lines
before it are in both and the same, the line is in one of the two at least, and it is not the same in
both. A line that one of them lacks is quoted as an empty one, and the two quoted lines always
differ. -/
theorem checkText_exact (m : Model) (source : Text) :
    (m.checkText source = .ok () ↔ m.text = source) ∧
      (m.text ≠ source → ∃ k expected written,
        m.checkText source = .error (.roundTripMismatch k expected written) ∧
        (Error.roundTripMismatch k expected written).report = ⟨.model, .roundTripMismatch,
          some (s!"line {k + 1} differs: " ++
            s!"expected {expected.quoted.string}, wrote {written.quoted.string}")⟩ ∧
        FirstDiffers k (Line.split source) (Line.split m.text) ∧
        (k < (Line.split source).length ∨ k < (Line.split m.text).length) ∧
        expected = (Line.split source)[k]?.getD [] ∧
        written = (Line.split m.text)[k]?.getD [] ∧
        expected.quoted.string ≠ written.quoted.string) := by
  refine ⟨⟨fun h => ?_, checkText_of_text_eq⟩, fun h => ?_⟩
  · by_contra hne
    obtain ⟨k, hk, -⟩ := checkText_of_text_ne hne
    simp [hk] at h
  · obtain ⟨k, hk, hdiffers⟩ := checkText_of_text_ne h
    refine ⟨k, _, _, hk, Error.report_roundTripMismatch _ _ _, hdiffers, hdiffers.exists_line,
      rfl, rfl, fun hquoted => ?_⟩
    exact hdiffers.getD_ne (Line.nil_not_mem_split _) (Line.nil_not_mem_split _)
      (Text.quoted_string_inj hquoted)

/-- A source that only lacks the line feed at its end is reported as well. -/
theorem tank_checked_unterminated : ∃ m, load .standard tank = .ok m ∧ m.text ≠ tank.dropLast ∧
    ∃ k expected written,
      m.checkText tank.dropLast = .error (.roundTripMismatch k expected written) ∧
      FirstDiffers k (Line.split tank.dropLast) (Line.split m.text) ∧
      expected.quoted.string ≠ written.quoted.string := by
  obtain ⟨m, hm⟩ := tank_loads
  have hne : m.text ≠ tank.dropLast := by
    rw [text_of_load hm]
    intro heq
    have hlength := congrArg List.length heq
    have hpos : 0 < tank.length := List.length_pos_iff.2 fun hnil => by
      rw [hnil] at hm
      exact nomatch (show Except.error _ = Except.ok m from hm)
    rw [List.length_dropLast] at hlength
    omega
  obtain ⟨k, expected, written, hcheck, -, hdiffers, -, -, -, hquoted⟩ :=
    (checkText_exact m tank.dropLast).2 hne
  exact ⟨m, hm, hne, k, expected, written, hcheck, hdiffers, hquoted⟩

end Model

end StockFlow
