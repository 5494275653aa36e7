import StockFlow.Proofs.Runs

/-! A record written as a block and read again. The lines that start with a tilde are those that
begin the units and the comment, unless the equation itself starts with one; then it is taken for
units, and the block still gives a variable of the same name. The bar stands on a line of its own
after the comment, so a comment that ends with a backslash loses it. -/
namespace StockFlow.Block

open Text (IsTrimmed)
open Piece (IsName IsKey IsUnclosed)
open Line (isDelimiter Pieces)

/-! ### Delimiter lines -/

theorem isDelimiter_tilde (t : Text) : isDelimiter (['\t', '~', '\t'] ++ t) = true := rfl

theorem isDelimiter_prefixed {before p rest : Text} (hb : ∀ c ∈ before, Unicode.isBlank c = true)
    (hp : ∀ c ∈ p.head?, Unicode.isBlank c = false) (hn : p ≠ []) :
    isDelimiter (before ++ p ++ rest) = (p.head? == some '~') := by
  have hs : Text.trimStart (before ++ p ++ rest) = p ++ rest := by
    rw [List.append_assoc, Text.trimStart_append_of_blank hb]
    refine Text.trimStart_eq_self fun c hc => hp c ?_
    rwa [List.head?_append_of_ne_nil _ hn] at hc
  rw [isDelimiter, hs, List.head?_append_of_ne_nil _ hn]

section Lines

variable {t : Text} (width : Nat) (ending : Newline)

theorem isDelimiter_continuation {ps : List Text} {p : Text} (hp : Pieces t (p :: ps)) :
    ∀ l ∈ (ps.map (['\t', '\t'] ++ ·)).map (· ++ ending.text), isDelimiter l = false := by
  intro l hl
  obtain ⟨l', hl', rfl⟩ := List.mem_map.1 hl
  obtain ⟨q, hq, rfl⟩ := List.mem_map.1 hl'
  have hs := hp.starts q hq
  have hblank : ∀ c ∈ q.head?, Unicode.isBlank c = false := fun c hc =>
    Line.not_isBlank_of_mayStart (by simpa [Option.mem_def.1 hc] using hs)
  rw [isDelimiter_prefixed (by simp; decide) hblank (Line.ne_nil_of_starts hs)]
  by_contra hc
  have hq : q.head? = some '~' := by simpa using hc
  rw [hq] at hs
  exact absurd hs (by decide)

/-- A wrapped equation has a delimiter on the first line if it starts with a tilde. -/
theorem wrap_plain (ht : IsTrimmed t) (hn : t ≠ []) : ∃ l ls,
    (Line.wrap width ['\t'] ['\t', '\t'] t).map (· ++ ending.text) = l :: ls ∧
      isDelimiter l = (t.head? == some '~') ∧ ∀ l' ∈ ls, isDelimiter l' = false := by
  obtain ⟨p, ps, hw, hp⟩ := Line.wrap_pieces width ['\t'] ['\t', '\t'] t
  have hpne : p ≠ [] := by
    cases hp with
    | last => exact hn
    | cons he => exact Line.ne_nil_of_ends he
  rw [hw]
  refine ⟨_, _, rfl, ?_, isDelimiter_continuation ending hp⟩
  rw [isDelimiter_prefixed (by simp; decide) (hp.isTrimmed ht p (.head _)).head hpne]
  obtain ⟨s, rfl⟩ := hp.prefix_first
  rw [List.head?_append_of_ne_nil _ hpne]

end Lines

/-! ### The first line -/

theorem split_symbol (operator : Operator) : Operator.split operator.symbol = (operator, []) := by
  cases operator <;> rfl

/-- A name is declared before any text that does not go on with it. -/
theorem declared?_append {k definition : Text} (hk : IsKey k) (hends : Piece.EndsName definition) :
    declared? (k ++ definition) = some (k, definition) := by
  obtain ⟨token, hkey, -, hscan⟩ := hk.scan_append
  simp [declared?, hscan _ hends, Token.leading?, Piece.scan_source, hkey]

theorem declared?_of_isKey {k : Text} (hk : IsKey k) (operator : Operator) :
    declared? (k ++ operator.symbol) = some (k, operator.symbol) := by
  refine declared?_append hk ?_
  cases operator with
  | none => exact Piece.endsName_nil
  | _ => exact Piece.endsName_cons (by simp) _

theorem declared?_of_isUnclosed {k : Text} (h : IsUnclosed k) : declared? k = some (k, []) := by
  simp [declared?, h.scan_eq, Token.leading?, Token.key]

theorem declared?_written {d : Dialect} {r : Record} (h : IsAuthored d r) :
    declared? (r.name ++ r.operator.symbol) = some (r.name, r.operator.symbol) := by
  rcases h.name with hk | ⟨hop, hu⟩
  · exact declared?_of_isKey hk r.operator
  · rw [hop, Operator.symbol, List.append_nil, declared?_of_isUnclosed hu]

theorem withoutEnding_declaration {name : Text} (h : ∀ c ∈ name.getLast?, c ≠ '\n' ∧ c ≠ '\r')
    (operator : Operator) (ending : Newline) :
    Line.withoutEnding (name ++ operator.symbol ++ ending.text) = name ++ operator.symbol := by
  rw [Line.withoutEnding_ending]
  refine Line.withoutEnding_eq_self fun c hc => ?_
  cases operator with
  | none => exact h c (by simpa [Operator.symbol] using hc)
  | equals | data | subscriptRange =>
    rw [Operator.symbol, List.getLast?_append_of_ne_nil _ (by simp)] at hc
    simp only [List.getLast?_cons_cons, List.getLast?_singleton, Option.mem_some] at hc
    rw [← hc]
    decide

/-! ### The whole block -/

/-- What is read from lines whose delimiters are known. -/
theorem read_of_delimiters {d : Dialect} {block : Stretch} {first u c name definition : Text}
    {equationLines us cs : List Text}
    (hlines : block.lines = first :: (equationLines ++ u :: (us ++ c :: cs)))
    (hname : declared? (Line.withoutEnding first) = some (name, definition))
    (hequation : ∀ l ∈ equationLines, isDelimiter l = false) (hu : isDelimiter u = true)
    (hus : ∀ l ∈ us, isDelimiter l = false) (hc : isDelimiter c = true) (equation : Text)
    (he : Line.join none none ((Operator.split definition).2 :: equationLines) = equation) :
    read d block = match dependencies d (Operator.split definition).1 equation with
      | .error _ => .error ⟨some name, block.range, .badArguments equation⟩
      | .ok (equation, parents) => .ok {
          name, operator := (Operator.split definition).1, equation, parents
          units := Line.join (some .delimiter) none (u :: us)
          comment := Line.join (some .delimiter) (some .terminator) (c :: cs)
          children := Catalog.empty
          role := .unclassified } := by
  subst he
  cases hdep : dependencies d (Operator.split definition).1
      (Line.join none none ((Operator.split definition).2 :: equationLines)) <;>
    simp only [read, hlines, hname, delimit?_append hequation hu, delimit?_append hus hc, hdep]

/-- The lines of the equation with their endings. -/
def equationLines (d : Dialect) (ending : Newline) (r : Record) : List Text :=
  (if (equationText d r).isEmpty then []
    else Line.wrap d.maxWidth ['\t'] ['\t', '\t'] (equationText d r)).map (· ++ ending.text)

def delimitedLines (d : Dialect) (ending : Newline) (t : Text) : List Text :=
  (Line.wrap d.maxWidth ['\t', '~', '\t'] ['\t', '\t'] t).map (· ++ ending.text)

/-- Wrapped units, or a wrapped comment, have a delimiter on the first line only. -/
theorem delimitedLines_eq (d : Dialect) (ending : Newline) (t : Text) :
    ∃ l ls, delimitedLines d ending t = l :: ls ∧ isDelimiter l = true ∧
      ∀ l' ∈ ls, isDelimiter l' = false := by
  obtain ⟨p, ps, hw, hp⟩ := Line.wrap_pieces d.maxWidth ['\t', '~', '\t'] ['\t', '\t'] t
  rw [delimitedLines, hw]
  refine ⟨_, _, rfl, ?_, isDelimiter_continuation ending hp⟩
  exact isDelimiter_tilde (p ++ ending.text)

theorem join_delimitedLines (d : Dialect) (ending : Newline) {t : Text} (ht : IsTrimmed t) :
    Line.join (some .delimiter) none (delimitedLines d ending t) = t := by
  refine Line.join_of_content ?_
  rw [delimitedLines, Line.map_content_ending]
  exact Line.content_wrap_delimited ht d.maxWidth

/-- A comment goes on for the bar, so a backslash at its end is taken away. -/
theorem join_delimitedLines_bar (d : Dialect) (ending : Newline) {t : Text} (ht : IsTrimmed t) :
    Line.join (some .delimiter) (some .terminator)
      (delimitedLines d ending t ++ [['\t', '|'] ++ ending.text]) = Line.continued t := by
  refine Line.join_of_content_append ?_ (Line.lastPiece_terminator ending)
  rw [delimitedLines, Line.map_content_ending]
  exact Line.content_wrap_delimited ht d.maxWidth

theorem write_eq (d : Dialect) (ending : Newline) (r : Record) :
    write d ending r = (r.name ++ r.operator.symbol ++ ending.text) ::
      (equationLines d ending r ++ (delimitedLines d ending r.units ++
        (delimitedLines d ending r.comment ++ [['\t', '|'] ++ ending.text]))) := by
  simp [write, bareLines, equationLines, delimitedLines]

section Written

variable {d : Dialect} {r : Record} (h : IsAuthored d r) (ending : Newline) (start : Nat)

theorem join_equationLines (htext : IsTrimmed (equationText d r)) :
    Line.join none none ([] :: equationLines d ending r) = equationText d r := by
  by_cases hn : equationText d r = []
  · simp only [equationLines, hn]
    rfl
  · have hlines : equationLines d ending r =
        (Line.wrap d.maxWidth ['\t'] ['\t', '\t'] (equationText d r)).map (· ++ ending.text) := by
      simp [equationLines, hn]
    have hne : equationLines d ending r ≠ [] := by
      rw [hlines]
      obtain ⟨l, ls, hw, -⟩ := wrap_plain d.maxWidth ending htext hn
      rw [hw]
      exact List.cons_ne_nil l ls
    rw [Line.join_nil_cons hne rfl]
    refine Line.join_of_content ?_
    rw [hlines, Line.map_content_ending]
    exact Line.content_wrap_plain htext d.maxWidth

theorem not_isDelimiter_equationLines (htext : IsTrimmed (equationText d r))
    (ht : (equationText d r).head? ≠ some '~') :
    ∀ l ∈ equationLines d ending r, isDelimiter l = false := by
  by_cases hn : equationText d r = []
  · simp [equationLines, hn]
  · obtain ⟨l, ls, hw, hl, hls⟩ := wrap_plain d.maxWidth ending htext hn
    have hfirst : isDelimiter l = false := by
      rw [hl]
      simpa using ht
    have hlines : equationLines d ending r = l :: ls := by
      rw [← hw]
      simp [equationLines, hn]
    rw [hlines]
    exact List.forall_mem_cons.2 ⟨hfirst, hls⟩

/-- What is written is read with the equation that was written, whatever the name is read as. -/
theorem read_written {name : Text} {operator : Operator}
    (hlast : ∀ c ∈ r.name.getLast?, c ≠ '\n' ∧ c ≠ '\r')
    (hname : declared? (r.name ++ r.operator.symbol) = some (name, operator.symbol))
    (htext : IsTrimmed (equationText d r)) (ht : (equationText d r).head? ≠ some '~') :
    read d ⟨start, write d ending r⟩ = match dependencies d operator (equationText d r) with
      | .error _ => .error ⟨some name, ⟨start, start + (write d ending r).length⟩,
          .badArguments (equationText d r)⟩
      | .ok (equation, parents) => .ok {
          name, operator, equation, parents
          units := Line.join (some .delimiter) none (delimitedLines d ending r.units)
          comment := Line.join (some .delimiter) (some .terminator)
            (delimitedLines d ending r.comment ++ [['\t', '|'] ++ ending.text])
          children := Catalog.empty
          role := .unclassified } := by
  obtain ⟨u, us, hunits, hu, hus⟩ := delimitedLines_eq d ending r.units
  obtain ⟨c, cs, hcomment, hc, -⟩ := delimitedLines_eq d ending r.comment
  have hlines : (⟨start, write d ending r⟩ : Stretch).lines =
      (r.name ++ r.operator.symbol ++ ending.text) :: (equationLines d ending r ++ u ::
        (us ++ c :: (cs ++ [['\t', '|'] ++ ending.text]))) := by
    simp [write_eq, hunits, hcomment]
  rw [← withoutEnding_declaration hlast r.operator ending] at hname
  have hread := read_of_delimiters (d := d) hlines hname
    (not_isDelimiter_equationLines ending htext ht) hu hus hc (equationText d r)
  rw [split_symbol] at hread
  rw [hread (join_equationLines ending htext), hunits, hcomment]
  rfl

include h

/-- A written record is read with the equation that was written, and with its comment as far as a
backslash at the end of it. -/
theorem read_write (ht : r.equation.head? ≠ some '~') :
    read d ⟨start, write d ending r⟩ = match dependencies d r.operator (equationText d r) with
      | .error _ => .error ⟨some r.name, ⟨start, start + (write d ending r).length⟩,
          .badArguments (equationText d r)⟩
      | .ok (equation, parents) => .ok {
          name := r.name, operator := r.operator, equation, parents, units := r.units
          comment := Line.continued r.comment
          children := Catalog.empty
          role := .unclassified } := by
  rw [read_written ending start h.nameEnds (declared?_written h) (isTrimmed_equationText h)
    (mt (head?_equationText h).1 ht), join_delimitedLines d ending h.units,
    join_delimitedLines_bar d ending h.comment]

/-- An equation that starts with a tilde is read as units; what is left is no equation at all. -/
theorem read_write_of_tilde (ht : r.equation.head? = some '~') :
    ∃ s, read d ⟨start, write d ending r⟩ = .ok s ∧ s.name = r.name ∧ s.operator = r.operator ∧
      s.equation = [] := by
  have htext := (head?_equationText h).2 ht
  have hn : equationText d r ≠ [] := by
    rintro hn
    simp [hn] at htext
  obtain ⟨e, es, hw, he, hes⟩ := wrap_plain d.maxWidth ending (isTrimmed_equationText h) hn
  obtain ⟨u, us, hunits, hu, hus⟩ := delimitedLines_eq d ending r.units
  have hlines : (⟨start, write d ending r⟩ : Stretch).lines =
      (r.name ++ r.operator.symbol ++ ending.text) :: ([] ++ e :: (es ++ u ::
        (us ++ (delimitedLines d ending r.comment ++ [['\t', '|'] ++ ending.text])))) := by
    simp [write_eq, hunits, equationLines, hn, hw]
  have hdeclared := declared?_written h
  rw [← withoutEnding_declaration h.nameEnds r.operator ending] at hdeclared
  have hread := read_of_delimiters (d := d) hlines hdeclared (by simp) (by simp [he, htext]) hes
    hu []
  rw [split_symbol, dependencies_nil] at hread
  exact ⟨_, hread rfl, rfl, rfl, rfl⟩

end Written

/-! ### Which records come back -/

/-- A record that reading a block gives, or that a loaded model has after some edits. -/
def IsStored (d : Dialect) (r : Record) : Prop :=
  (∃ block, read d block = .ok r) ∨ ∃ source m steps name,
    Model.load d source = .ok m ∧ (m.after steps).graph.find? name = some r

theorem isAuthored_of_isStored {d : Dialect} {r : Record} (h : IsStored d r) : IsAuthored d r := by
  rcases h with ⟨block, hread⟩ | ⟨source, m, steps, name, hload, hfind⟩
  · exact isAuthored_of_read hread
  · have hm := (Model.evolved_of_load hload).after steps
    have hr := hm.authored hfind
    rwa [hm.dialect, Model.dialect_of_load hload] at hr

/-- What the written equation depends on is what the record lists. -/
def ListsParents (d : Dialect) (r : Record) : Prop :=
  dependencies d r.operator (equationText d r) = .ok (r.equation, r.parents)

/-- The written equation lists the parents, unless they stand in a placeholder whose function has a
name that cannot be read. -/
theorem listsParents_of_isAuthored {d : Dialect} {r : Record} (h : IsAuthored d r)
    (hcase : r.equation ≠ [] ∨ r.parents.items = [] ∨ IsName d.placeholder.text) :
    ListsParents d r := by
  rcases equationText_cases h with ⟨ht, hdep⟩ | ⟨-, -, he, hn, -⟩
  · rw [ListsParents, ht]
    exact hdep
  · rcases hcase with hne | hp | hf
    · exact absurd he hne
    · exact absurd hp hn
    · exact dependencies_equationText h hf

theorem continued_ne {t : Text} (h : t.getLast? = some '\\') : Line.continued t ≠ t := by
  intro heq
  have hlength : (Line.continued t).length < t.length := by
    have hc : Line.continued t = Text.trimEnd t.dropLast := by
      simp [Line.continued, Text.dropLast?, h]
    have hle := (List.rdropWhile_prefix Unicode.isBlank t.dropLast).length_le
    have hpos : 0 < t.length := by
      cases t with
      | nil => simp at h
      | cons => simp
    rw [hc]
    rw [List.length_dropLast] at hle
    exact Nat.lt_of_le_of_lt hle (by omega)
  rw [heq] at hlength
  exact Nat.lt_irrefl _ hlength

/-- A record comes back from its own lines just when its equation does not start with a tilde, its
comment does not end with a backslash, and the written equation lists its parents. The last can fail
only for a placeholder whose function has a name that cannot be read. -/
theorem restored_iff {d : Dialect} {r : Record} (h : IsStored d r) (ending : Newline)
    (start : Nat) :
    ((∃ s, read d ⟨start, write d ending r⟩ = .ok s ∧ s.authoredLike r = true) ↔
      r.equation.head? ≠ some '~' ∧ r.comment.getLast? ≠ some '\\' ∧ ListsParents d r) ∧
    (r.equation ≠ [] ∨ r.parents.items = [] ∨ IsName d.placeholder.text → ListsParents d r) := by
  have h := isAuthored_of_isStored h
  refine ⟨⟨?_, ?_⟩, ?_⟩
  · rintro ⟨s, hread, hlike⟩
    have hs := Record.authoredLike_iff.1 hlike
    have ht : r.equation.head? ≠ some '~' := by
      intro ht
      obtain ⟨s', hread', -, -, he⟩ := read_write_of_tilde h ending start ht
      obtain rfl := Except.ok.inj (hread.symm.trans hread')
      have hequation := congrArg Record.equation hs
      change s.equation = r.equation at hequation
      rw [← hequation, he] at ht
      simp at ht
    rw [read_write h ending start ht] at hread
    cases hdep : dependencies d r.operator (equationText d r) with
    | error e => simp [hdep] at hread
    | ok found =>
      obtain ⟨equation, parents⟩ := found
      simp only [hdep] at hread
      obtain rfl := Except.ok.inj hread
      simp only [Record.authored, Record.mk.injEq] at hs
      obtain ⟨-, -, rfl, -, hcomment, rfl, -, -⟩ := hs
      exact ⟨ht, fun hlast => continued_ne hlast hcomment, hdep⟩
  · rintro ⟨ht, hlast, hdep⟩
    have hread := read_write h ending start ht
    rw [hdep] at hread
    refine ⟨_, hread, Record.authoredLike_iff.2 ?_⟩
    simp only [Record.authored, Line.continued_eq_self hlast]
  · exact listsParents_of_isAuthored h

/-- A variable of which only the parents are given. -/
def placeholderBlock : Stretch :=
  ⟨0, ["level = A FUNCTION OF(outflow, \"in (1)\", tank [ a, b ])\n", "\t~\tm3\n",
    "\t~\tsee \\\n", "\tbelow\t|\n"].map String.toList⟩

theorem placeholder_restored : ∃ r, read .standard placeholderBlock = .ok r ∧ ∃ s,
    read .standard ⟨0, write .standard .crlf r⟩ = .ok s ∧ s.authoredLike r = true := by
  have hfacts : (read .standard placeholderBlock).toOption.map (fun r =>
      (r.equation, r.comment)) = some ([], "see below".toList) := by
    decide +kernel
  obtain ⟨r, hr, hfacts⟩ := Option.map_eq_some_iff.1 hfacts
  have hr := Model.eq_ok_of_toOption hr
  obtain ⟨he, hc⟩ := Prod.mk.inj hfacts
  have hiff := restored_iff (.inl ⟨_, hr⟩) .crlf 0
  have hlist := hiff.2 (.inr (.inr isName_standard))
  exact ⟨r, hr, hiff.1.2 ⟨by simp [he], by rw [hc]; decide, hlist⟩⟩

/-- An equation that starts with a tilde. -/
def tildeBlock : Stretch :=
  ⟨0, ["x=~y\n", "\t~\tm\n", "\t~\tnote\n", "\t|\n"].map String.toList⟩

theorem not_all_restored : ¬ ∀ (d : Dialect) (r : Record) (ending : Newline) (start : Nat),
    IsStored d r → ∃ s, read d ⟨start, write d ending r⟩ = .ok s ∧ s.authoredLike r = true := by
  intro hall
  have hlost : ((read .standard tildeBlock).toOption.bind fun r =>
      (read .standard ⟨0, write .standard .lf r⟩).toOption.map fun s => s.authoredLike r) =
        some false := by
    decide +kernel
  obtain ⟨r, hr, hlost⟩ := Option.bind_eq_some_iff.1 hlost
  obtain ⟨s, hs, hlike⟩ := hall .standard r .lf 0 (.inl ⟨_, Model.eq_ok_of_toOption hr⟩)
  rw [hs] at hlost
  have hfalse : s.authoredLike r = false := Option.some.inj hlost
  rw [hfalse] at hlike
  exact Bool.false_ne_true hlike

end StockFlow.Block
