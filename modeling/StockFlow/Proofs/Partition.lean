import StockFlow.Proofs.Written

/-! What the parts of a stretch of lines are, said without the scan that finds them. The parts tile
the lines, no two neighbours are both outside blocks, a block is a declaration outside macros with the
lines before the next blank one, and a declaration outside blocks stands in a macro. Just one list
of parts is like this if there is any; if there is none, a declaration outside macros has no blank
line after it. -/
namespace StockFlow

/-! ### Macro definitions -/

namespace Line

theorem not_closesMacro {line : Text} (h : opensMacro line = true) : closesMacro line = false := by
  by_contra hc
  have hopens : (line.trimStart.take 7).map Char.toLower = ":macro:".toList := by
    simpa [opensMacro, opensWith] using h
  have hcloses : (line.trimStart.take 14).map Char.toLower = ":end of macro:".toList := by
    simpa [closesMacro, opensWith] using hc
  have htake := congrArg (List.take 7) hcloses
  rw [← List.map_take, List.take_take, Nat.min_eq_left (by decide), hopens] at htake
  exact absurd htake (by decide)

end Line

/-- One of the lines opens a macro that no later line closes. -/
def EndsInMacro (lines : List Text) : Prop :=
  ∃ before opener inner, lines = before ++ opener :: inner ∧ Line.opensMacro opener = true ∧
    ∀ l ∈ inner, Line.closesMacro l = false

/-- Every declaration among the lines stands in a macro. -/
def Silent (lines : List Text) : Prop :=
  ∀ before line after, lines = before ++ line :: after → Line.isDeclaration line = true →
    EndsInMacro before

theorem not_endsInMacro_nil : ¬ EndsInMacro [] := by
  rintro ⟨before, opener, inner, h, -⟩
  simp at h

/-- What one more line does: it opens a macro, closes one, or changes nothing. -/
theorem endsInMacro_append_singleton {lines : List Text} {line : Text} :
    EndsInMacro (lines ++ [line]) ↔
      Line.opensMacro line = true ∨ EndsInMacro lines ∧ Line.closesMacro line = false := by
  constructor
  · rintro ⟨before, opener, inner, heq, hopens, hinner⟩
    rcases List.eq_nil_or_concat' inner with rfl | ⟨init, last, rfl⟩
    · obtain ⟨-, hline⟩ := List.append_inj' heq rfl
      rw [List.singleton_inj.1 hline]
      exact .inl hopens
    · rw [← List.cons_append, ← List.append_assoc] at heq
      obtain ⟨rfl, hline⟩ := List.append_inj' heq rfl
      rw [List.singleton_inj.1 hline]
      exact .inr ⟨⟨before, opener, init, rfl, hopens, fun l hl => hinner l (by simp [hl])⟩,
        hinner last (by simp)⟩
  · rintro (hopens | ⟨⟨before, opener, inner, rfl, hopens, hinner⟩, hline⟩)
    · exact ⟨lines, line, [], rfl, hopens, by simp⟩
    · refine ⟨before, opener, inner ++ [line], by simp, hopens, fun l hl => ?_⟩
      rcases List.mem_append.1 hl with hl | hl
      · exact hinner l hl
      · rwa [List.mem_singleton.1 hl]

theorem not_endsInMacro_of_closes {lines : List Text} {close : Text}
    (closes : Line.closesMacro close = true) : ¬ EndsInMacro (lines ++ [close]) := by
  rw [endsInMacro_append_singleton, closes]
  rintro (opens | ⟨-, hfalse⟩)
  · rw [Line.not_closesMacro opens] at closes
    exact Bool.false_ne_true closes
  · exact Bool.false_ne_true hfalse.symm

/-- Where a line stands in lines that are put together around another line. -/
theorem append_cons_cases {before after skipped rest : List Text} {line l : Text}
    (h : skipped ++ line :: rest = before ++ l :: after) :
    (∃ middle, skipped = before ++ l :: middle) ∨ (skipped = before ∧ line = l ∧ rest = after) ∨
      ∃ middle, before = skipped ++ line :: middle ∧ rest = middle ++ l :: after := by
  rcases List.append_eq_append_iff.1 h with ⟨middle, rfl, hm⟩ | ⟨middle, rfl, hm⟩
  · cases middle with
    | nil =>
      obtain ⟨rfl, rfl⟩ := List.cons.inj hm
      exact .inr (.inl ⟨by simp, rfl, rfl⟩)
    | cons x middle =>
      obtain ⟨rfl, rfl⟩ := List.cons.inj hm
      exact .inr (.inr ⟨middle, rfl, rfl⟩)
  · cases middle with
    | nil =>
      obtain ⟨rfl, rfl⟩ := List.cons.inj hm
      exact .inr (.inl ⟨by simp, rfl, rfl⟩)
    | cons x middle =>
      obtain ⟨rfl, -⟩ := List.cons.inj hm
      exact .inl ⟨middle, rfl⟩

namespace Silent

theorem nil : Silent [] := fun before line after h => by simp at h

theorem of_append {lines more : List Text} (h : Silent (lines ++ more)) : Silent lines :=
  fun before line after heq hd => h before line (after ++ more) (by simp [heq]) hd

theorem not_declares {line : Text} {lines : List Text} (h : Silent (line :: lines)) :
    Line.isDeclaration line = false := by
  by_contra hd
  exact not_endsInMacro_nil (h [] line lines rfl (by simpa using hd))

/-- A macro definition is added to silent lines. -/
theorem append_macro {lines inner : List Text} {opener : Text} (h : Silent lines)
    (opens : Line.opensMacro opener = true)
    (inside : ∀ l ∈ inner.dropLast, Line.closesMacro l = false) :
    Silent (lines ++ opener :: inner) := by
  intro before line after heq hd
  rcases append_cons_cases heq with ⟨middle, rfl⟩ | ⟨rfl, rfl, -⟩ | ⟨middle, rfl, rfl⟩
  · exact h before line middle rfl hd
  · rw [Line.not_opensMacro hd] at opens
    exact absurd opens Bool.false_ne_true
  · refine ⟨lines, opener, middle, rfl, opens, fun l hl => inside l ?_⟩
    rw [List.dropLast_append_cons]
    exact List.mem_append_left _ hl

theorem append_line {lines : List Text} {line : Text} (h : Silent lines)
    (silent : Line.isDeclaration line = false) : Silent (lines ++ [line]) := by
  intro before l after heq hd
  rcases append_cons_cases heq with ⟨middle, rfl⟩ | ⟨rfl, rfl, -⟩ | ⟨middle, -, hnil⟩
  · exact h before l middle rfl hd
  · rw [silent] at hd
    exact absurd hd Bool.false_ne_true
  · simp at hnil

end Silent

namespace Part

/-! ### Partitions -/

/-- The parts hold the lines from index `start` on, one after the other. -/
def Tiles (start : Nat) (lines : List Text) : List Part → Prop
  | [] => lines = []
  | p :: parts => p.stretch.start = start ∧ ∃ rest, lines = p.stretch.lines ++ rest ∧
      Tiles (start + p.stretch.lines.length) rest parts

/-- What a part is before the parts `after`. A macro that is not closed leaves nothing after it; a
block ends where a blank line follows. -/
inductive IsPlaced (after : List Part) : Part → Prop where
  | verbatim {s : Stretch} (silent : Silent s.lines) (closed : after ≠ [] → ¬ EndsInMacro s.lines)
      (apart : ∀ next, after.head? ≠ some (.verbatim next)) : IsPlaced after (.verbatim s)
  | block {s : Stretch} (declares : ∃ line ∈ s.lines.head?, Line.isDeclaration line = true)
      (filled : ∀ l ∈ s.lines, Line.isBlank l = false)
      (ended : ∃ l ∈ (after.flatMap fun p => p.stretch.lines).head?, Line.isBlank l = true) :
      IsPlaced after (.block s)

/-- The parts of a stretch: blocks, and what is between them. -/
structure IsPartition (s : Stretch) (parts : List Part) : Prop where
  tiles : Tiles s.start s.lines parts
  nonempty : ∀ p ∈ parts, p.stretch.lines ≠ []
  placed : ∀ p after, p :: after <:+ parts → IsPlaced after p

/-- What follows the parts is not in a macro that they end in. -/
def OutsideMacro (parts : List Part) : Prop :=
  ∀ s, parts.getLast? = some (.verbatim s) → ¬ EndsInMacro s.lines

/-- In the stretch there is, at the index, a declaration outside blocks and macros that no blank line
follows. -/
def MeetsUnended (s : Stretch) (index : Nat) (line : Text) : Prop :=
  ∃ before after parts, s.lines = before ++ line :: after ∧ index = s.start + before.length ∧
    IsPartition ⟨s.start, before⟩ parts ∧ OutsideMacro parts ∧ Line.isDeclaration line = true ∧
    ∀ l ∈ after, Line.isBlank l = false

theorem Tiles.lines_eq {start : Nat} {lines : List Text} {parts : List Part}
    (h : Tiles start lines parts) : (parts.flatMap fun p => p.stretch.lines) = lines := by
  induction parts generalizing start lines with
  | nil => exact Eq.symm h
  | cons p parts ih =>
    obtain ⟨-, rest, rfl, hrest⟩ := h
    rw [List.flatMap_cons, ih hrest]

theorem outsideMacro_append_block (before : List Part) (b : Stretch) (after : List Part) :
    OutsideMacro (before ++ .block b :: after) ↔ OutsideMacro after := by
  rw [OutsideMacro, List.getLast?_append_of_ne_nil _ (by simp)]
  cases after with
  | nil => simp [OutsideMacro]
  | cons p after => rw [List.getLast?_cons_cons, OutsideMacro]

theorem outsideMacro_ofSkipped (start : Nat) (skipped : List Text) :
    OutsideMacro (ofSkipped start skipped) ↔ ¬ EndsInMacro skipped := by
  cases skipped with
  | nil => simp [ofSkipped, OutsideMacro, not_endsInMacro_nil]
  | cons line lines => simp [ofSkipped, OutsideMacro]

section Parts

variable {start : Nat} {lines skipped rest : List Text} {line : Text} {parts : List Part}

theorem isPartition_nil : IsPartition ⟨start, lines⟩ [] ↔ lines = [] :=
  ⟨fun h => h.tiles, fun h => ⟨h, by simp, by simp⟩⟩

theorem isPartition_cons {p : Part} : IsPartition ⟨start, lines⟩ (p :: parts) ↔
    p.stretch.start = start ∧ p.stretch.lines ≠ [] ∧ IsPlaced parts p ∧
      ∃ rest, lines = p.stretch.lines ++ rest ∧
        IsPartition ⟨start + p.stretch.lines.length, rest⟩ parts := by
  constructor
  · rintro ⟨⟨hstart, rest, hlines, htiles⟩, hnonempty, hplaced⟩
    obtain ⟨hp, hparts⟩ := List.forall_mem_cons.1 hnonempty
    exact ⟨hstart, hp, hplaced p parts List.suffix_rfl, rest, hlines, htiles, hparts,
      fun q after hq => hplaced q after (hq.trans (List.suffix_cons _ _))⟩
  · rintro ⟨hstart, hp, hplaced, rest, hlines, h⟩
    refine ⟨⟨hstart, rest, hlines, h.tiles⟩, List.forall_mem_cons.2 ⟨hp, h.nonempty⟩,
      fun q after hq => ?_⟩
    rcases List.suffix_cons_iff.1 hq with heq | hq
    · obtain ⟨rfl, rfl⟩ := List.cons.inj heq
      exact hplaced
    · exact h.placed q after hq

theorem isPartition_empty : IsPartition ⟨start, []⟩ parts ↔ parts = [] := by
  cases parts with
  | nil => simp [isPartition_nil]
  | cons p parts =>
    simp only [reduceCtorEq, iff_false]
    intro h
    obtain ⟨-, hp, -, rest, heq, -⟩ := isPartition_cons.1 h
    exact hp (List.append_eq_nil_iff.1 heq.symm).1

theorem exists_cons (h : IsPartition ⟨start, line :: lines⟩ parts) :
    ∃ p tail, parts = p :: tail := by
  refine List.exists_cons_of_ne_nil fun hn => ?_
  rw [hn, isPartition_nil] at h
  simp at h

/-- A block stands before a blank line. -/
theorem isPartition_cons_block {b : Stretch} : IsPartition ⟨start, lines⟩ (.block b :: parts) ↔
    ∃ line body blank rest, b = ⟨start, line :: body⟩ ∧ lines = line :: (body ++ blank :: rest) ∧
      Line.isDeclaration line = true ∧ (∀ l ∈ body, Line.isBlank l = false) ∧
      Line.isBlank blank = true ∧
      IsPartition ⟨start + (line :: body).length, blank :: rest⟩ parts := by
  rw [isPartition_cons]
  constructor
  · rintro ⟨rfl, -, hplaced, rest, hlines, h⟩
    cases hplaced with
    | block declares filled ended =>
      obtain ⟨line, hline, hd⟩ := declares
      obtain ⟨blank, hblank, hends⟩ := ended
      rw [h.tiles.lines_eq] at hblank
      obtain ⟨more, rfl⟩ := List.head?_eq_some_iff.1 hblank
      obtain ⟨index, lines⟩ := b
      obtain ⟨body, rfl⟩ : ∃ body, lines = line :: body := List.head?_eq_some_iff.1 hline
      exact ⟨line, body, blank, more, rfl, hlines, hd, (List.forall_mem_cons.1 filled).2, hends, h⟩
  · rintro ⟨line, body, blank, rest, rfl, rfl, hd, hfilled, hends, h⟩
    refine ⟨rfl, by simp [stretch], .block ⟨line, rfl, hd⟩ ?_ ⟨blank, ?_, hends⟩, _, rfl, h⟩
    · refine List.forall_mem_cons.2 ⟨?_, hfilled⟩
      by_contra hblank
      rw [Line.not_isDeclaration_of_isBlank (by simpa using hblank)] at hd
      exact Bool.false_ne_true hd
    · rw [h.tiles.lines_eq]
      rfl

/-- Silent lines are in the first part, which holds nothing but silent lines. -/
theorem exists_verbatim (hs : Silent skipped) (hne : skipped ≠ [])
    (h : IsPartition ⟨start, skipped ++ rest⟩ parts) : ∃ more rest' tail, rest = more ++ rest' ∧
      parts = .verbatim ⟨start, skipped ++ more⟩ :: tail ∧
      IsPlaced tail (.verbatim ⟨start, skipped ++ more⟩) ∧
      IsPartition ⟨start + (skipped ++ more).length, rest'⟩ tail := by
  obtain ⟨first, skipped, rfl⟩ := List.exists_cons_of_ne_nil hne
  obtain ⟨p, tail, rfl⟩ := exists_cons h
  cases p with
  | block b =>
    obtain ⟨line, body, blank, more, -, heq, hd, -⟩ := isPartition_cons_block.1 h
    obtain ⟨rfl, -⟩ := List.cons.inj heq
    rw [hs.not_declares] at hd
    exact absurd hd Bool.false_ne_true
  | verbatim v =>
    obtain ⟨index, lines⟩ := v
    obtain ⟨rfl, -, hplaced, rest', heq, htail⟩ := isPartition_cons.1 h
    simp only [stretch] at heq htail hplaced ⊢
    rcases List.append_eq_append_iff.1 heq with ⟨more, rfl, rfl⟩ | ⟨more, hmore, rfl⟩
    · exact ⟨more, rest', tail, rfl, rfl, hplaced, htail⟩
    · cases more with
      | nil =>
        rw [List.append_nil] at hmore
        rw [List.nil_append] at htail
        refine ⟨[], rest, tail, rfl, ?_⟩
        rw [List.append_nil, hmore]
        exact ⟨rfl, hplaced, htail⟩
      | cons l more =>
        -- the part would end before a silent line, where no part can begin
        obtain ⟨q, tail, rfl⟩ := exists_cons htail
        cases hplaced with
        | verbatim silent closed apart =>
          cases q with
          | verbatim next => exact absurd rfl (apart next)
          | block b =>
            obtain ⟨line, body, blank, _, -, heq, hd, -⟩ := isPartition_cons_block.1 htail
            obtain ⟨rfl, -⟩ := List.cons.inj heq
            exact absurd (hs lines l more hmore hd) (closed (by simp))

/-- Skipped lines are a part of their own before a block. -/
theorem isPartition_ofSkipped (hs : Silent skipped) (ho : parts ≠ [] → ¬ EndsInMacro skipped)
    (ha : ∀ next, parts.head? ≠ some (.verbatim next))
    (h : IsPartition ⟨start + skipped.length, rest⟩ parts) :
    IsPartition ⟨start, skipped ++ rest⟩ (ofSkipped start skipped ++ parts) := by
  cases skipped with
  | nil => exact h
  | cons first skipped =>
    exact isPartition_cons.2 ⟨rfl, by simp [stretch], .verbatim hs ho ha, rest, rfl, h⟩

theorem isPartition_silent (hs : Silent skipped) :
    IsPartition ⟨start, skipped⟩ parts ↔ parts = ofSkipped start skipped := by
  by_cases hne : skipped = []
  · subst hne
    exact isPartition_empty
  constructor
  · intro h
    rw [← List.append_nil skipped] at h
    obtain ⟨more, rest', tail, heq, rfl, -, htail⟩ := exists_verbatim hs hne h
    obtain ⟨rfl, rfl⟩ := List.append_eq_nil_iff.1 heq.symm
    rw [isPartition_empty.1 htail]
    simp [ofSkipped, hne]
  · rintro rfl
    have h : IsPartition ⟨start, skipped ++ []⟩ (ofSkipped start skipped ++ []) :=
      isPartition_ofSkipped hs (by simp) (by simp) (isPartition_nil.2 rfl)
    rwa [List.append_nil, List.append_nil] at h

theorem exists_block (hd : Line.isDeclaration line = true)
    (h : IsPartition ⟨start, line :: rest⟩ parts) : ∃ body blank after tail,
      rest = body ++ blank :: after ∧ (∀ l ∈ body, Line.isBlank l = false) ∧
      Line.isBlank blank = true ∧
      IsPartition ⟨start + (line :: body).length, blank :: after⟩ tail ∧
      parts = .block ⟨start, line :: body⟩ :: tail := by
  obtain ⟨p, tail, rfl⟩ := exists_cons h
  cases p with
  | block b =>
    obtain ⟨first, body, blank, after, rfl, heq, -, hfilled, hends, htail⟩ :=
      isPartition_cons_block.1 h
    obtain ⟨rfl, rfl⟩ := List.cons.inj heq
    exact ⟨body, blank, after, tail, rfl, hfilled, hends, htail, rfl⟩
  | verbatim v =>
    obtain ⟨index, lines⟩ := v
    obtain ⟨-, hne, hplaced, rest', heq, -⟩ := isPartition_cons.1 h
    obtain ⟨first, more, rfl⟩ : ∃ first more, lines = first :: more :=
      List.exists_cons_of_ne_nil hne
    obtain ⟨rfl, -⟩ := List.cons.inj heq
    cases hplaced with
    | verbatim silent =>
      rw [silent.not_declares] at hd
      exact absurd hd Bool.false_ne_true

/-- After silent lines outside macros, a declaration begins a block. -/
theorem isPartition_declaration (hs : Silent skipped) (ho : ¬ EndsInMacro skipped)
    (hd : Line.isDeclaration line = true) :
    IsPartition ⟨start, skipped ++ line :: rest⟩ parts ↔ ∃ body blank after tail,
      rest = body ++ blank :: after ∧ (∀ l ∈ body, Line.isBlank l = false) ∧
      Line.isBlank blank = true ∧
      IsPartition ⟨start + skipped.length + (line :: body).length, blank :: after⟩ tail ∧
      parts = ofSkipped start skipped ++ .block ⟨start + skipped.length, line :: body⟩ :: tail := by
  constructor
  · intro h
    by_cases hne : skipped = []
    · subst hne
      exact exists_block hd h
    · obtain ⟨more, rest', tail, heq, rfl, hplaced, htail⟩ := exists_verbatim hs hne h
      cases more with
      | nil =>
        obtain rfl : rest' = line :: rest := heq.symm
        rw [List.append_nil] at htail
        obtain ⟨body, blank, after, tail, hrest, hfilled, hends, hafter, rfl⟩ :=
          exists_block hd htail
        exact ⟨body, blank, after, tail, hrest, hfilled, hends, hafter, by simp [ofSkipped, hne]⟩
      | cons l more =>
        obtain ⟨rfl, -⟩ := List.cons.inj heq
        cases hplaced with
        | verbatim silent => exact absurd (silent skipped line more rfl hd) ho
  · rintro ⟨body, blank, after, tail, rfl, hfilled, hends, htail, rfl⟩
    refine isPartition_ofSkipped hs (fun _ => ho) (by simp) ?_
    exact isPartition_cons_block.2 ⟨line, body, blank, after, rfl, rfl, hd, hfilled, hends, htail⟩

/-- The lines before the first blank line, and the others. -/
theorem eq_of_blank {body body' after after' : List Text} {blank blank' : Text}
    (h : body ++ blank :: after = body' ++ blank' :: after')
    (hfilled : ∀ l ∈ body, Line.isBlank l = false) (hends : Line.isBlank blank = true)
    (hfilled' : ∀ l ∈ body', Line.isBlank l = false) (hends' : Line.isBlank blank' = true) :
    body = body' ∧ blank :: after = blank' :: after' := by
  have hlength := congrArg (List.findIdx? Line.isBlank) h
  rw [findIdx?_append_cons hfilled hends, findIdx?_append_cons hfilled' hends'] at hlength
  exact List.append_inj h (Option.some.inj hlength)

theorem isPartition_of_ended {body after : List Text} {blank : Text} (hs : Silent skipped)
    (ho : ¬ EndsInMacro skipped) (hd : Line.isDeclaration line = true)
    (hfilled : ∀ l ∈ body, Line.isBlank l = false) (hends : Line.isBlank blank = true) :
    IsPartition ⟨start, skipped ++ line :: (body ++ blank :: after)⟩ parts ↔ ∃ tail,
      IsPartition ⟨start + skipped.length + (line :: body).length, blank :: after⟩ tail ∧
      ofSkipped start skipped ++ .block ⟨start + skipped.length, line :: body⟩ :: tail = parts := by
  rw [isPartition_declaration hs ho hd]
  constructor
  · rintro ⟨body', blank', after', tail, heq, hfilled', hends', htail, rfl⟩
    obtain ⟨rfl, hafter⟩ := eq_of_blank heq hfilled hends hfilled' hends'
    exact ⟨tail, hafter ▸ htail, rfl⟩
  · rintro ⟨tail, htail, rfl⟩
    exact ⟨body, blank, after, tail, rfl, hfilled, hends, htail, rfl⟩

/-! ### Declarations that nothing ends -/

/-- No declaration stands outside macros among silent lines. -/
theorem not_outsideMacro (hs : Silent (lines ++ line :: rest)) (hd : Line.isDeclaration line = true)
    (h : IsPartition ⟨start, lines⟩ parts) : ¬ OutsideMacro parts := by
  rw [(isPartition_silent hs.of_append).1 h, outsideMacro_ofSkipped, not_not]
  exact hs lines line rest rfl hd

variable {index : Nat} {l : Text}

theorem meetsUnended_of_unended (hs : Silent skipped) (ho : ¬ EndsInMacro skipped)
    (hd : Line.isDeclaration line = true) (hrest : ∀ l ∈ rest, Line.isBlank l = false) :
    MeetsUnended ⟨start, skipped ++ line :: rest⟩ index l ↔
      index = start + skipped.length ∧ l = line := by
  constructor
  · rintro ⟨before, after, parts, heq, rfl, h, hout, hl, hafter⟩
    rcases append_cons_cases heq with ⟨middle, rfl⟩ | ⟨rfl, rfl, -⟩ | ⟨middle, rfl, rfl⟩
    · exact absurd hout (not_outsideMacro hs hl h)
    · exact ⟨rfl, rfl⟩
    · obtain ⟨body, blank, _, _, rfl, -, hends, -⟩ := (isPartition_declaration hs ho hd).1 h
      rw [hrest blank (by simp)] at hends
      exact absurd hends Bool.false_ne_true
  · rintro ⟨rfl, rfl⟩
    exact ⟨skipped, rest, _, rfl, rfl, (isPartition_silent hs).2 rfl,
      (outsideMacro_ofSkipped start skipped).2 ho, hd, hrest⟩

theorem meetsUnended_of_ended {body after : List Text} {blank : Text} (hs : Silent skipped)
    (ho : ¬ EndsInMacro skipped) (hd : Line.isDeclaration line = true)
    (hfilled : ∀ l ∈ body, Line.isBlank l = false) (hends : Line.isBlank blank = true) :
    MeetsUnended ⟨start, skipped ++ line :: (body ++ blank :: after)⟩ index l ↔
      MeetsUnended ⟨start + skipped.length + (line :: body).length, blank :: after⟩ index l := by
  constructor
  · rintro ⟨before, rest, parts, heq, rfl, h, hout, hl, hrest⟩
    rcases append_cons_cases heq with ⟨middle, rfl⟩ | ⟨-, -, rfl⟩ | ⟨middle, rfl, hmiddle⟩
    · exact absurd hout (not_outsideMacro hs hl h)
    · rw [hrest blank (by simp)] at hends
      exact absurd hends Bool.false_ne_true
    · obtain ⟨body', blank', after', tail, rfl, hfilled', hends', htail, rfl⟩ :=
        (isPartition_declaration hs ho hd).1 h
      rw [List.append_assoc, List.cons_append] at hmiddle
      obtain ⟨rfl, hblank⟩ := eq_of_blank hmiddle hfilled hends hfilled' hends'
      refine ⟨blank' :: after', rest, tail, hblank, ?_, htail, ?_, hl, hrest⟩
      · simp only [List.length_append, List.length_cons]
        omega
      · exact (outsideMacro_append_block _ _ _).1 hout
  · rintro ⟨before, rest, tail, heq, rfl, htail, hout, hl, hrest⟩
    cases before with
    | nil =>
      obtain ⟨rfl, -⟩ := List.cons.inj heq
      rw [Line.not_isDeclaration_of_isBlank hends] at hl
      exact absurd hl Bool.false_ne_true
    | cons first before =>
      obtain ⟨rfl, rfl⟩ := List.cons.inj heq
      refine ⟨skipped ++ line :: (body ++ blank :: before), rest, _, by simp, ?_,
        (isPartition_of_ended hs ho hd hfilled hends).2 ⟨tail, htail, rfl⟩, ?_, hl, hrest⟩
      · simp only [List.length_append, List.length_cons]
        omega
      · exact (outsideMacro_append_block _ _ _).2 hout

end Parts

/-! ### The scan -/

/-- A scan that stands after silent lines, in no macro unless it is at the end, finds the partition or
the first declaration that nothing ends. -/
theorem extractFrom_iff {start : Nat} {skipped lines : List Text} (hs : Silent skipped)
    (hm : EndsInMacro skipped → lines = []) :
    (∀ parts, extractFrom start skipped lines = .ok parts ↔
      IsPartition ⟨start, skipped ++ lines⟩ parts) ∧
    ∀ e, extractFrom start skipped lines = .error e ↔ ∃ index line,
      MeetsUnended ⟨start, skipped ++ lines⟩ index line ∧
        e = .unterminatedBlock index (Line.withoutEnding line) := by
  fun_induction extractFrom start skipped lines with
  | case1 start skipped =>
    rw [List.append_nil]
    refine ⟨fun parts => ?_, fun e => ?_⟩
    · rw [isPartition_silent hs, Except.ok.injEq, eq_comm]
    · simp only [reduceCtorEq, false_iff]
      rintro ⟨index, line, ⟨before, after, parts, rfl, -, h, hout, hd, -⟩, -⟩
      exact not_outsideMacro hs hd h hout
  | case2 start skipped line rest opens length ih =>
    rw [List.append_assoc, List.cons_append, List.take_append_drop] at ih
    rcases macroLength_cases rest with
      ⟨htake, hdrop, inside⟩ | ⟨inner, close, after, -, htake, -, inside, closes⟩
    · refine ih (hs.append_macro opens fun l hl => inside l ?_) fun _ => hdrop
      rw [← htake]
      exact List.dropLast_subset _ hl
    · have hclosed : ¬ EndsInMacro (skipped ++ line :: rest.take length) := by
        rw [htake, ← List.cons_append, ← List.append_assoc]
        exact not_endsInMacro_of_closes closes
      refine ih (hs.append_macro opens fun l hl => inside l ?_) fun h => absurd h hclosed
      rwa [htake, List.dropLast_concat] at hl
  | case3 start skipped line rest plain declares hf =>
    have ho : ¬ EndsInMacro skipped := fun h => absurd (hm h) (by simp)
    have hrest := List.findIdx?_eq_none_iff.1 hf
    refine ⟨fun parts => ?_, fun e => ?_⟩
    · rw [isPartition_declaration hs ho declares]
      simp only [reduceCtorEq, false_iff]
      rintro ⟨body, blank, after, tail, rfl, -, hends, -⟩
      rw [hrest blank (by simp)] at hends
      exact Bool.false_ne_true hends
    · simp only [meetsUnended_of_unended hs ho declares hrest]
      constructor
      · intro h
        exact ⟨_, line, ⟨rfl, rfl⟩, (Except.error.inj h).symm⟩
      · rintro ⟨index, l, ⟨rfl, rfl⟩, rfl⟩
        rfl
  | case4 start skipped line rest plain declares length hf stretch ih =>
    have ho : ¬ EndsInMacro skipped := fun h => absurd (hm h) (by simp)
    obtain ⟨body, blank, after, rfl, rfl, filled, ends⟩ := exists_of_findIdx? hf
    have hstretch : stretch = ⟨start + skipped.length, line :: body⟩ := by simp [stretch]
    have hstop : stretch.range.stop = start + skipped.length + (line :: body).length := by
      rw [hstretch]
      rfl
    obtain ⟨ihok, iherror⟩ := ih .nil fun h => absurd h not_endsInMacro_nil
    rw [List.drop_left, List.nil_append, hstop] at ihok iherror
    rw [List.drop_left, hstop, hstretch]
    constructor
    · intro parts
      simp only [isPartition_of_ended hs ho declares filled ends, ← ihok]
      cases extractFrom (start + skipped.length + (line :: body).length) [] (blank :: after) <;>
        simp [Except.map]
    · intro e
      simp only [meetsUnended_of_ended hs ho declares filled ends, ← iherror e]
      cases extractFrom (start + skipped.length + (line :: body).length) [] (blank :: after) <;>
        simp [Except.map]
  | case5 start skipped line rest plain silent ih =>
    have ho : ¬ EndsInMacro skipped := fun h => absurd (hm h) (by simp)
    rw [List.append_assoc, List.singleton_append] at ih
    refine ih (hs.append_line (by simpa using silent)) fun h => ?_
    rcases endsInMacro_append_singleton.1 h with hopens | ⟨h, -⟩
    · exact absurd hopens plain
    · exact absurd h ho

/-- Extraction gives the one partition that the lines of the stretch have. It fails just when there is
a declaration outside blocks and macros that no blank line follows, and the error is where this is. -/
theorem extract_partition (s : Stretch) :
    (∀ parts, extract s = .ok parts ↔ IsPartition s parts) ∧
    ∀ e, extract s = .error e ↔ ∃ index line, MeetsUnended s index line ∧
      e = .unterminatedBlock index (Line.withoutEnding line) :=
  extractFrom_iff .nil fun h => absurd h not_endsInMacro_nil

/-- A macro with a declaration in it and a blank line after that. -/
def scaleMacro : List Text :=
  [":MACRO: SCALE(input, factor)\n", "SCALE = input * factor\n", "\t~\n", "\t~\t|\n", "\n",
    ":END OF MACRO:\n"].map String.toList

/-- A block that lacks the blank line to end it. -/
def scaledBlock : List Text :=
  ["a = SCALE(b, 2)\n", "\t~\n", "\t~\t|\n"].map String.toList

theorem scaleMacro_silent : Silent scaleMacro ∧ ¬ EndsInMacro scaleMacro := by
  have hclosed : ¬ EndsInMacro (scaleMacro.dropLast ++ [":END OF MACRO:\n".toList]) :=
    not_endsInMacro_of_closes (by decide)
  exact ⟨Silent.nil.append_macro (by decide) (by decide), hclosed⟩

/-- The macro is one part with its declaration, the block after it ends before a blank line, and
without that line it is the block that is reported. -/
theorem scaledBlock_extracted :
    let parts := [.verbatim ⟨1, scaleMacro⟩, .block ⟨7, scaledBlock⟩, .verbatim ⟨10, [['\n']]⟩]
    IsPartition ⟨1, scaleMacro ++ (scaledBlock ++ [['\n']])⟩ parts ∧
      extract ⟨1, scaleMacro ++ (scaledBlock ++ [['\n']])⟩ = .ok parts ∧
      MeetsUnended ⟨1, scaleMacro ++ scaledBlock⟩ 7 "a = SCALE(b, 2)\n".toList ∧
      extract ⟨1, scaleMacro ++ scaledBlock⟩ =
        .error (.unterminatedBlock 7 "a = SCALE(b, 2)".toList) := by
  intro parts
  obtain ⟨hs, ho⟩ := scaleMacro_silent
  have hd : Line.isDeclaration "a = SCALE(b, 2)\n".toList = true := by decide
  have hblank : IsPartition ⟨10, [['\n']]⟩ [.verbatim ⟨10, [['\n']]⟩] :=
    (isPartition_silent (Silent.nil.append_line (by decide))).2 rfl
  have hparts : IsPartition ⟨1, scaleMacro ++ (scaledBlock ++ [['\n']])⟩ parts :=
    (isPartition_of_ended hs ho hd (by decide) (by decide)).2 ⟨_, hblank, rfl⟩
  have hunended : MeetsUnended ⟨1, scaleMacro ++ scaledBlock⟩ 7 "a = SCALE(b, 2)\n".toList :=
    (meetsUnended_of_unended hs ho hd (by decide)).2 ⟨rfl, rfl⟩
  exact ⟨hparts, ((extract_partition _).1 parts).2 hparts, hunended,
    ((extract_partition _).2 _).2 ⟨7, _, hunended, rfl⟩⟩

end Part

end StockFlow
