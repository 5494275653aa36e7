import StockFlow.Proofs.Layout
import StockFlow.Proofs.Placeholder
import StockFlow.Proofs.Reading

/-! What a record has of which a block was read, or which an edit has made of such a record. Its name
can be read again, its texts are trimmed, and its equation and parents are what some text on the
right-hand side depends on. -/
namespace StockFlow

open Text (IsTrimmed)
open Piece (IsName IsKey IsUnclosed IsAlone)

/-! ### Joined texts -/

namespace Line

theorem isTrimmed_continued {t : Text} (h : IsTrimmed t) : IsTrimmed (continued t) := by
  unfold continued
  cases hd : t.dropLast? '\\' with
  | none => exact h
  | some s =>
    have hs : s = t.dropLast := by
      unfold Text.dropLast? at hd
      split at hd
      · exact (Option.some.inj hd).symm
      · simp at hd
    refine ⟨fun c hc => ?_, Text.last_dropTrailing _ _⟩
    have hne : Text.trimEnd s ≠ [] := by
      rintro hn
      simp [hn] at hc
    rw [Option.elim_some, Text.head?_trimEnd hne, hs] at hc
    refine h.head c ?_
    cases t with
    | nil => simp at hc
    | cons x rest =>
      cases rest with
      | nil => simp at hc
      | cons y rest => simpa using hc

theorem isTrimmed_together {ps : List Text} (h : ∀ p ∈ ps, IsTrimmed p) :
    IsTrimmed (together ps) := by
  induction ps with
  | nil => exact Text.isTrimmed_nil
  | cons p ps ih =>
    obtain ⟨hp, hps⟩ := List.forall_mem_cons.1 h
    by_cases hn : p = []
    · rw [hn, together_cons_nil]
      exact ih hps
    · rw [together_cons hn]
      by_cases ht : together ps = []
      · rw [ht]
        exact hp
      · rw [spaced_of_ne_nil ht]
        refine ⟨fun c hc => hp.head c ?_, fun c hc => (ih hps).last c ?_⟩
        · rwa [List.head?_append_of_ne_nil _ hn] at hc
        · rwa [List.append_cons, List.getLast?_append_of_ne_nil _ ht] at hc

theorem isTrimmed_join (head tail : Option Mark) (lines : List Text) :
    IsTrimmed (join head tail lines) := by
  rcases List.eq_nil_or_concat' lines with rfl | ⟨lines, line, rfl⟩
  · exact Text.isTrimmed_nil
  · rw [join_eq]
    refine isTrimmed_together fun p hp => ?_
    rcases List.mem_append.1 hp with hp | hp
    · obtain ⟨l, -, rfl⟩ := List.mem_map.1 hp
      exact isTrimmed_continued (Text.isTrimmed_trim _)
    · rw [List.mem_singleton.1 hp]
      exact Text.isTrimmed_trim _

end Line

/-! ### Dependencies -/

theorem dependencies_nil (d : Dialect) (operator : Operator) :
    dependencies d operator [] = .ok ([], Catalog.empty) := by
  have hp : d.callsPlaceholder [] = false := CallPattern.fits_nil _
  have hs : d.callsStock [] = false := CallPattern.fits_nil _
  have href : references d [] = [] := by simp [references, Token.ofEquation, Reference.ofTokens]
  unfold dependencies checkStock
  split
  · rfl
  · simp only [hp, hs, href]
    rfl

/-- The equation and the parents that are found in a right-hand side, if any can be. -/
inductive Depends (d : Dialect) (t : Text) : Operator → Text → NameSet → Prop where
  | range : Depends d t .subscriptRange t Catalog.empty
  | placeholder {operator : Operator} {args : List Text} (refers : operator ≠ .subscriptRange)
      (calls : d.callsPlaceholder t = true)
      (arguments : Call.arguments t d.placeholder.text = .ok args) :
      Depends d t operator [] (Catalog.ofList (args.flatMap (references d)))
  | equation {operator : Operator} (refers : operator ≠ .subscriptRange)
      (calls : d.callsPlaceholder t = false) (checked : checkStock d t = .ok ()) :
      Depends d t operator t (Catalog.ofList (references d t))

theorem dependencies_eq_ok_iff {d : Dialect} {operator : Operator} {t equation : Text}
    {parents : NameSet} :
    dependencies d operator t = .ok (equation, parents) ↔ Depends d t operator equation parents := by
  constructor
  · intro h
    unfold dependencies at h
    split at h
    next hop =>
      subst hop
      obtain ⟨rfl, rfl⟩ := Prod.mk.inj (Except.ok.inj h)
      exact .range
    next hop =>
      split at h
      next hcalls =>
        cases hargs : Call.arguments t d.placeholder.text with
        | error e => simp [hargs, Except.map] at h
        | ok args =>
          rw [hargs] at h
          obtain ⟨rfl, rfl⟩ := Prod.mk.inj (Except.ok.inj h)
          exact .placeholder hop hcalls hargs
      next hcalls =>
        cases hstock : checkStock d t with
        | error e => simp [hstock, Except.map] at h
        | ok u =>
          rw [hstock] at h
          obtain ⟨rfl, rfl⟩ := Prod.mk.inj (Except.ok.inj h)
          exact .equation hop (by simpa using hcalls) hstock
  · intro h
    cases h with
    | range => rfl
    | placeholder hop hcalls hargs => simp [dependencies, hop, hcalls, hargs, Except.map]
    | equation hop hcalls hstock => simp [dependencies, hop, hcalls, hstock, Except.map]

/-- The text is a placeholder, which leaves the parents that it lists, or it is the equation. -/
theorem dependencies_cases {d : Dialect} {operator : Operator} {t equation : Text}
    {parents : NameSet} (h : dependencies d operator t = .ok (equation, parents)) :
    (operator ≠ .subscriptRange ∧ equation = [] ∧ ∃ args,
      Call.arguments t d.placeholder.text = .ok args ∧
        parents = Catalog.ofList (args.flatMap (references d))) ∨
    (equation = t ∧ ∀ k ∈ parents.items, k ∈ references d t) := by
  cases dependencies_eq_ok_iff.1 h with
  | range => exact .inr ⟨rfl, by simp⟩
  | placeholder hop _ hargs => exact .inl ⟨hop, rfl, _, hargs, rfl⟩
  | equation => exact .inr ⟨rfl, fun k hk => Catalog.mem_ofList.1 hk⟩

/-! ### Authored records -/

/-- What reading a block and editing a record give, children and role aside. -/
structure IsAuthored (d : Dialect) (r : Record) : Prop where
  name : IsKey r.name ∨ (r.operator = .none ∧ IsUnclosed r.name)
  nameEnds : ∀ c ∈ r.name.getLast?, c ≠ '\n' ∧ c ≠ '\r'
  units : IsTrimmed r.units
  comment : IsTrimmed r.comment
  source : ∃ t, IsTrimmed t ∧ dependencies d r.operator t = .ok (r.equation, r.parents)

namespace Block

/-- A declared name can be read again, though perhaps only at the end of a line. -/
theorem name_of_declared? {line name definition : Text}
    (h : declared? line = some (name, definition)) :
    IsKey name ∨ (IsUnclosed name ∧ definition = [] ∧ name <:+ line) := by
  obtain ⟨gaps, s, token, qs, hscan, hkey, rfl⟩ := declared?_eq_some h
  rcases Piece.isKey_of_scan hscan hkey with hk | ⟨rfl, rfl, hu⟩
  · exact .inl hk
  · refine .inr ⟨hu, rfl, gaps.flatMap Piece.source, ?_⟩
    rw [← Piece.scan_source line, hscan]
    simp [Piece.source]

theorem last_withoutEnding (line : Text) :
    ∀ c ∈ (Line.withoutEnding line).getLast?, c ≠ '\n' ∧ c ≠ '\r' := by
  intro c hc
  have h := Text.last_dropTrailing (fun c => c == '\n' || c == '\r') line c hc
  simpa using h

theorem last_of_declared? {line name definition : Text}
    (h : declared? (Line.withoutEnding line) = some (name, definition)) :
    ∀ c ∈ name.getLast?, c ≠ '\n' ∧ c ≠ '\r' := by
  intro c hc
  rcases name_of_declared? h with hk | ⟨-, -, hsuffix⟩
  · exact Line.not_newline_of_not_isBlank (hk.isTrimmed.1.last c hc)
  · obtain ⟨pre, hpre⟩ := hsuffix
    refine last_withoutEnding line c ?_
    rw [← hpre]
    exact List.mem_getLast?_append_of_mem_getLast? hc

theorem isAuthored_of_read {d : Dialect} {block : Stretch} {r : Record}
    (h : read d block = .ok r) : IsAuthored d r := by
  have hread := read_eq_ok_iff.1 h
  generalize block.lines = lines at hread
  cases hread with
  | @intro first name definition units comment equation continued more rest parents declared _ _ _ _
      depends =>
    refine ⟨?_, last_of_declared? declared, Line.isTrimmed_join _ _ _, Line.isTrimmed_join _ _ _,
      ⟨_, Line.isTrimmed_join _ _ _, depends⟩⟩
    rcases name_of_declared? declared with hk | ⟨hu, rfl, -⟩
    · exact .inl hk
    · exact .inr ⟨rfl, hu⟩

end Block

theorem isAuthored_of_apply {d : Dialect} {e : Edit} {r s : Record} (hr : IsAuthored d r)
    (h : e.apply d r = .ok s) : IsAuthored d s := by
  have hline (t : Text) : IsTrimmed (Edit.oneLine t) := Line.isTrimmed_join _ _ _
  obtain ⟨equation, parents, hsource, rfl⟩ := Edit.apply_cases h
  refine ⟨hr.name, hr.nameEnds, Edit.elim_oneLine hr.units hline _,
    Edit.elim_oneLine hr.comment hline _, ?_⟩
  rcases hsource with ⟨rfl, rfl⟩ | ⟨t, hdep⟩
  · exact hr.source
  · exact ⟨_, hline t, hdep⟩

/-! ### The equation as it is written -/

section Written

variable {d : Dialect} {r : Record}

/-- What a record without an equation is written as. -/
def placeholderCall (d : Dialect) (parents : List Text) : Text :=
  d.placeholder.text ++ '(' :: Text.joinWith ", " parents ++ [')']

/-- The written equation is the equation, or a placeholder for parents that can be read again. -/
theorem equationText_cases (h : IsAuthored d r) :
    (Block.equationText d r = r.equation ∧
      dependencies d r.operator r.equation = .ok (r.equation, r.parents)) ∨
    (Block.equationText d r = placeholderCall d r.parents.items ∧ r.operator ≠ .subscriptRange ∧
      r.equation = [] ∧ r.parents.items ≠ [] ∧
      (∀ k ∈ r.parents.items, IsKey k ∧ d.reserves k = false) ∧
      ∀ c ∈ d.placeholder.text.head?, ¬ Piece.IsForeign c) := by
  obtain ⟨t, -, ht⟩ := h.source
  have hempty (he : r.equation = []) (hp : r.parents.items = []) :
      Block.equationText d r = r.equation ∧
        dependencies d r.operator r.equation = .ok (r.equation, r.parents) := by
    have hparents : r.parents = Catalog.empty := Catalog.isEmpty_iff.1 (List.isEmpty_iff.2 hp)
    rw [he, hparents, dependencies_nil]
    exact ⟨by simp [Block.equationText, he, Catalog.isEmpty, hp], rfl⟩
  rcases dependencies_cases ht with ⟨hop, he, args, hargs, hparents⟩ | ⟨he, -⟩
  · by_cases hp : r.parents.items = []
    · exact .inl (hempty he hp)
    · refine .inr ⟨by simp [Block.equationText, placeholderCall, he, Catalog.isEmpty, hp], hop, he,
        hp, fun k hk => ?_, not_isForeign_of_arguments hargs⟩
      rw [hparents, Catalog.mem_ofList] at hk
      obtain ⟨a, ha, hka⟩ := List.mem_flatMap.1 hk
      obtain ⟨u, hu, rfl⟩ := Call.arguments_run hargs a ha
      exact isKey_of_mem_references hu hka
  · rw [← he] at ht
    by_cases hn : r.equation = []
    · have hp : r.parents.items = [] := by
        rw [hn, dependencies_nil] at ht
        have hparents : Catalog.empty = r.parents := congrArg Prod.snd (Except.ok.inj ht)
        rw [← hparents]
        rfl
      exact .inl (hempty hn hp)
    · exact .inl ⟨by simp [Block.equationText, hn], ht⟩

/-- A name by itself is not called, so even the name of a function is a reference there. -/
theorem ofTokens_of_isAlone {k : Text} (hk : IsAlone k) (hr : d.reserves k = false) :
    Reference.ofTokens d (Token.ofEquation k) = [k] := by
  obtain ⟨token, hs, hkey⟩ := hk
  have hcall : Reference.isCall d token [] = false := by cases token <;> rfl
  have hof : Token.ofEquation k = [token] := by simp [Token.ofEquation, hs, Piece.token?]
  rw [hof]
  simp [Reference.ofTokens, hkey, hcall, hr]

theorem references_of_isAlone {k : Text} (hk : IsAlone k) (hr : d.reserves k = false) :
    references d k = [k] := by
  rw [references, ofTokens_of_isAlone hk hr]
  rfl

/-- A placeholder is read back, if its function has a name that can be read. -/
theorem dependencies_placeholderCall {operator : Operator} {parents : NameSet}
    (hop : operator ≠ .subscriptRange) (hn : parents.items ≠ [])
    (hk : ∀ k ∈ parents.items, IsKey k ∧ d.reserves k = false)
    (hf : IsName d.placeholder.text) :
    dependencies d operator (placeholderCall d parents.items) = .ok ([], parents) := by
  have hcalls : d.callsPlaceholder (placeholderCall d parents.items) = true := by
    refine CallPattern.fits_iff.2 ?_
    have hfits := CallPattern.fits_call d.placeholder (Text.joinWith ", " parents.items ++ [')'])
    simpa [placeholderCall] using hfits
  have hargs : Call.arguments (placeholderCall d parents.items) d.placeholder.text =
      .ok parents.items := by
    obtain ⟨k, ks, hks⟩ := List.exists_cons_of_ne_nil hn
    rw [placeholderCall, hks]
    refine Call.arguments_listed hf fun x hx => ?_
    rw [← hks] at hx
    exact (hk x hx).1
  have hrefs : parents.items.flatMap (references d) = parents.items := by
    have hmap : parents.items.flatMap (references d) = parents.items.flatMap fun k => [k] :=
      List.flatMap_congr fun k hm => references_of_isAlone (hk k hm).1.isAlone (hk k hm).2
    rw [hmap, List.flatMap_singleton']
  simp only [dependencies, if_neg hop, hcalls, if_true, hargs, Except.map, hrefs,
    Catalog.ofList_items]

theorem dependencies_equationText (h : IsAuthored d r) (hf : IsName d.placeholder.text) :
    dependencies d r.operator (Block.equationText d r) = .ok (r.equation, r.parents) := by
  rcases equationText_cases h with ⟨ht, hdep⟩ | ⟨ht, hop, he, hn, hk, -⟩
  · rw [ht, hdep]
  · rw [ht, he]
    exact dependencies_placeholderCall hop hn hk hf

theorem head?_placeholderCall (d : Dialect) (parents : List Text) :
    (placeholderCall d parents).head? = d.placeholder.text.head? := by
  rw [placeholderCall, List.append_assoc, List.head?_append_of_ne_nil _ d.placeholder.nonempty]

theorem isTrimmed_placeholderCall (hf : ∀ c ∈ d.placeholder.text.head?, ¬ Piece.IsForeign c)
    (parents : List Text) : IsTrimmed (placeholderCall d parents) := by
  refine ⟨fun c hc => ?_, fun c hc => ?_⟩
  · rw [head?_placeholderCall] at hc
    have hforeign := hf c hc
    unfold Piece.IsForeign at hforeign
    simpa using fun hb => hforeign (.inl hb)
  · rw [placeholderCall, List.getLast?_concat] at hc
    obtain rfl := Option.some.inj hc
    decide

theorem isTrimmed_equationText (h : IsAuthored d r) : IsTrimmed (Block.equationText d r) := by
  rcases equationText_cases h with ⟨ht, hdep⟩ | ⟨ht, -, -, -, -, hf⟩
  · rw [ht]
    obtain ⟨t, htrim, hsource⟩ := h.source
    rcases dependencies_cases hsource with ⟨-, he, -⟩ | ⟨he, -⟩
    · rw [he]
      exact Text.isTrimmed_nil
    · rw [he]
      exact htrim
  · rw [ht]
    exact isTrimmed_placeholderCall hf _

/-- A placeholder does not begin with a tilde. -/
theorem head?_equationText (h : IsAuthored d r) :
    (Block.equationText d r).head? = some '~' ↔ r.equation.head? = some '~' := by
  rcases equationText_cases h with ⟨ht, -⟩ | ⟨ht, -, he, -, -, hf⟩
  · rw [ht]
  · rw [ht, head?_placeholderCall, he]
    constructor
    · exact fun hc => absurd (.inr rfl) (hf '~' hc)
    · simp

end Written

end StockFlow
