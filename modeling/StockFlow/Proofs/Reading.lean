import StockFlow.Model.Edit

/-! What a record is made of: the lines of the block that it is read from, or the texts of an edit. The
reader has many ways to fail and one to succeed, so the successful one is stated once and everything
about a record that was read is shown from that. -/
namespace StockFlow

namespace Block

/-! ### Delimiters and names -/

theorem delimit?_append {before after : List Text} {line : Text}
    (hb : ∀ l ∈ before, Line.isDelimiter l = false) (hl : Line.isDelimiter line = true) :
    delimit? (before ++ line :: after) = some (before, line, after) := by
  induction before with
  | nil => simp [delimit?, hl]
  | cons l before ih =>
    obtain ⟨hl, hb⟩ := List.forall_mem_cons.1 hb
    simp [delimit?, hl, ih hb]

theorem delimit?_eq_some {lines before after : List Text} {line : Text}
    (h : delimit? lines = some (before, line, after)) : lines = before ++ line :: after ∧
      (∀ l ∈ before, Line.isDelimiter l = false) ∧ Line.isDelimiter line = true := by
  induction lines generalizing before with
  | nil => simp [delimit?] at h
  | cons l lines ih =>
    rw [delimit?] at h
    split at h
    next hl =>
      obtain ⟨rfl, rfl, rfl⟩ := by simpa using h
      exact ⟨rfl, by simp, hl⟩
    next hl =>
      obtain ⟨⟨before', line', after'⟩, h', heq⟩ := Option.map_eq_some_iff.1 h
      obtain ⟨rfl, rfl, rfl⟩ := by simpa using heq
      obtain ⟨rfl, hb, hline⟩ := ih h'
      exact ⟨rfl, List.forall_mem_cons.2 ⟨by simpa using hl, hb⟩, hline⟩

theorem leading?_eq_some {ps : List Piece} {token : Token} {rest : Text}
    (h : Token.leading? ps = some (token, rest)) :
    ∃ gaps s qs, ps = gaps ++ .lexeme s token :: qs ∧ rest = qs.flatMap Piece.source := by
  induction ps with
  | nil => simp [Token.leading?] at h
  | cons p ps ih =>
    cases p with
    | gap s =>
      obtain ⟨gaps, s', qs, rfl, rfl⟩ := ih h
      exact ⟨.gap s :: gaps, s', qs, rfl, rfl⟩
    | lexeme s t =>
      obtain ⟨rfl, rfl⟩ := Prod.mk.inj (Option.some.inj h)
      exact ⟨[], s, ps, rfl, rfl⟩

theorem declared?_eq_some {line name definition : Text}
    (h : declared? line = some (name, definition)) :
    ∃ gaps s token qs, Piece.scan line = gaps ++ .lexeme s token :: qs ∧ token.key = some name ∧
      definition = qs.flatMap Piece.source := by
  unfold declared? at h
  split at h
  next token rest hl =>
    obtain ⟨name', hkey, heq⟩ := Option.map_eq_some_iff.1 h
    obtain ⟨rfl, rfl⟩ := Prod.mk.inj heq
    obtain ⟨gaps, s, qs, hscan, rfl⟩ := leading?_eq_some hl
    exact ⟨gaps, s, token, qs, hscan, hkey, rfl⟩
  · simp at h

/-! ### Blocks -/

/-- The record that lines are read as, if they can be read. -/
inductive IsRead (d : Dialect) : List Text → Record → Prop where
  | intro {first name definition units comment equation : Text}
      {continued more rest : List Text} {parents : NameSet}
      (declared : declared? (Line.withoutEnding first) = some (name, definition))
      (beforeUnits : ∀ l ∈ continued, Line.isDelimiter l = false)
      (atUnits : Line.isDelimiter units = true)
      (beforeComment : ∀ l ∈ more, Line.isDelimiter l = false)
      (atComment : Line.isDelimiter comment = true)
      (depends : dependencies d (Operator.split definition).1
        (Line.join none none ((Operator.split definition).2 :: continued)) =
          .ok (equation, parents)) :
      IsRead d (first :: (continued ++ units :: (more ++ comment :: rest))) {
        name, operator := (Operator.split definition).1, equation, parents
        units := Line.join (some .delimiter) none (units :: more)
        comment := Line.join (some .delimiter) (some .terminator) (comment :: rest)
        children := Catalog.empty
        role := .unclassified }

theorem read_eq_ok_iff {d : Dialect} {block : Stretch} {r : Record} :
    read d block = .ok r ↔ IsRead d block.lines r := by
  constructor
  · intro h
    unfold read at h
    simp only at h
    split at h
    · simp at h
    next first lines hblock =>
      split at h
      · simp at h
      next name definition hname =>
        split at h
        · simp at h
        next continued units lines' hunits =>
          split at h
          · simp at h
          next more comment rest hcomment =>
            split at h
            · simp at h
            next equation parents hdep =>
              obtain ⟨rfl, hb, hu⟩ := delimit?_eq_some hunits
              obtain ⟨rfl, hm, hc⟩ := delimit?_eq_some hcomment
              rw [hblock, ← Except.ok.inj h]
              exact .intro hname hb hu hm hc hdep
  · intro h
    generalize hlines : block.lines = lines at h
    cases h with
    | intro declared beforeUnits atUnits beforeComment atComment depends =>
      simp only [read, hlines, declared, delimit?_append beforeUnits atUnits,
        delimit?_append beforeComment atComment, depends]

end Block

/-! ### Edits -/

namespace Edit

/-- What is edited is the old text or a new one on one line. -/
theorem elim_oneLine {P : Text → Prop} {old : Text} (hold : P old) (hnew : ∀ t, P (oneLine t))
    (t : Option Text) : P (t.elim old oneLine) := by
  cases t with
  | none => exact hold
  | some t => exact hnew t

/-- The edit leaves an equation with its parents as they are, or it brings others. -/
def Brings (e : Edit) (d : Dialect) (operator : Operator) (old new : Text × NameSet) : Prop :=
  match e.equation with
  | none => new = old
  | some t => dependencies d operator (oneLine t) = .ok new

theorem apply_eq_ok_iff {d : Dialect} {e : Edit} {r s : Record} :
    e.apply d r = .ok s ↔ ∃ new : Text × NameSet,
    e.Brings d r.operator (r.equation, r.parents) new ∧
      s = { r with
        units := e.units.elim r.units oneLine
        comment := e.comment.elim r.comment oneLine
        equation := new.1
        parents := new.2 } := by
  unfold apply Brings
  cases e.equation with
  | none => simp [eq_comm]
  | some t =>
    simp only [Option.map_some]
    cases dependencies d r.operator (oneLine t) <;> simp [eq_comm]

/-- An edit keeps the equation with its parents, or it brings both. -/
theorem apply_cases {d : Dialect} {e : Edit} {r s : Record} (h : e.apply d r = .ok s) :
    ∃ equation parents,
      ((equation = r.equation ∧ parents = r.parents) ∨
        ∃ t, dependencies d r.operator (oneLine t) = .ok (equation, parents)) ∧
      s = { r with
        units := e.units.elim r.units oneLine
        comment := e.comment.elim r.comment oneLine
        equation, parents } := by
  obtain ⟨⟨equation, parents⟩, hnew, rfl⟩ := apply_eq_ok_iff.1 h
  refine ⟨equation, parents, ?_, rfl⟩
  unfold Brings at hnew
  split at hnew
  · exact .inl (Prod.mk.inj hnew)
  next t _ => exact .inr ⟨t, hnew⟩

theorem name_of_apply {d : Dialect} {e : Edit} {r s : Record} (h : e.apply d r = .ok s) :
    s.name = r.name ∧ s.operator = r.operator := by
  obtain ⟨equation, parents, -, rfl⟩ := apply_cases h
  exact ⟨rfl, rfl⟩

end Edit

end StockFlow
