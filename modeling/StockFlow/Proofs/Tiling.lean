import Mathlib.Data.List.TakeWhile
import StockFlow.Proofs.Loading

/-! How a document is divided. Its lines are a header, chunks of lines that belong to no block, the
lines of blocks, and the trailing section, with no line lost and none twice. `Chunks` says what the
chunks of lines are without counting lines, so that lines can be put in the place of others; dividing
lines into parts finds just these chunks. -/
namespace StockFlow

/-! ### Lines -/

namespace Line

/-- One line feed, at the end. -/
def IsTerminated (line : Text) : Prop := ∃ body, '\n' ∉ body ∧ line = body ++ ['\n']

theorem IsTerminated.ne_nil {line : Text} (h : IsTerminated line) : line ≠ [] := by
  obtain ⟨body, -, rfl⟩ := h
  simp

theorem split_flatten (t : Text) : (split t).flatten = t := by
  induction t with
  | nil => rfl
  | cons c rest ih =>
    rw [split]
    split
    · rw [List.flatten_cons, ih]
      rfl
    · split
      next hs =>
        rw [hs] at ih
        rw [← ih]
        rfl
      next line lines hs =>
        rw [hs] at ih
        rw [← ih]
        rfl

theorem split_terminated {line : Text} (h : IsTerminated line) (t : Text) :
    split (line ++ t) = line :: split t := by
  obtain ⟨body, hb, rfl⟩ := h
  induction body with
  | nil => simp [split]
  | cons c body ih =>
    have hc : c ≠ '\n' := fun hc => hb (hc ▸ .head _)
    have hrest := ih fun hm => hb (.tail _ hm)
    rw [List.cons_append, List.cons_append, split, if_neg hc, hrest]

theorem split_append {lines : List Text} (h : ∀ l ∈ lines, IsTerminated l) (t : Text) :
    split (lines.flatten ++ t) = lines ++ split t := by
  induction lines with
  | nil => rfl
  | cons line lines ih =>
    obtain ⟨hl, hlines⟩ := List.forall_mem_cons.1 h
    rw [List.flatten_cons, List.append_assoc, split_terminated hl, ih hlines, List.cons_append]

/-- Every line but the last one is terminated. -/
theorem isTerminated_of_split {t line : Text} {before after : List Text}
    (h : split t = before ++ line :: after) (ha : after ≠ []) : IsTerminated line := by
  induction t generalizing before line after with
  | nil => simp [split] at h
  | cons c rest ih =>
    rw [split] at h
    split at h
    next hc =>
      cases before with
      | nil =>
        obtain ⟨rfl, -⟩ := List.cons.inj h
        exact ⟨[], by simp, by rw [hc]; rfl⟩
      | cons b before => exact ih (List.cons.inj h).2 ha
    next hc =>
      cases hs : split rest with
      | nil =>
        rw [hs] at h
        cases before with
        | nil => exact absurd (List.cons.inj h).2.symm ha
        | cons b before => simp at h
      | cons first lines =>
        rw [hs] at h
        cases before with
        | nil =>
          obtain ⟨rfl, rfl⟩ := List.cons.inj h
          obtain ⟨body, hb, rfl⟩ := ih (show split rest = [] ++ _ :: _ from hs) ha
          exact ⟨c :: body, by simp [Ne.symm hc, hb], rfl⟩
        | cons b before =>
          have htail : split rest = (first :: before) ++ line :: after :=
            hs.trans (congrArg _ (List.cons.inj h).2)
          exact ih htail ha

/-- The lines of a text have a line feed at their end only. -/
theorem not_mem_dropLast_of_split {t line : Text} (h : line ∈ split t) :
    '\n' ∉ line.dropLast := by
  induction t generalizing line with
  | nil => simp [split] at h
  | cons c rest ih =>
    rw [split] at h
    split at h
    · rcases List.mem_cons.1 h with rfl | h
      · simp
      · exact ih h
    next hc =>
      cases hs : split rest with
      | nil =>
        rw [hs] at h
        rw [List.mem_singleton.1 h]
        simp
      | cons first lines =>
        rw [hs] at h ih
        rcases List.mem_cons.1 h with rfl | h
        · have hf := ih (.head _)
          cases first with
          | nil => simp
          | cons d first => simpa [Ne.symm hc] using hf
        · exact ih (.tail _ h)

end Line

/-! ### Sections -/

theorem Sections.ofLines_eq_ok_iff {d : Dialect} {lines : List Text} {sections : Sections} :
    ofLines d lines = .ok sections ↔ ∃ header declarations line trailing,
      lines = header :: (declarations ++ line :: trailing) ∧
      (∀ l ∈ declarations, d.isBoundaryLine (Line.withoutEnding l) = false) ∧
      d.isBoundaryLine (Line.withoutEnding line) = true ∧
      sections = ⟨header, ⟨1, declarations⟩, ⟨1 + declarations.length, line :: trailing⟩⟩ := by
  constructor
  · intro h
    unfold ofLines at h
    split at h
    · simp at h
    next header lines =>
      simp only at h
      split at h
      · simp at h
      next trailing hdrop =>
        obtain rfl := Except.ok.inj h
        have happend := List.takeWhile_append_dropWhile
          (p := fun l => !d.isBoundaryLine (Line.withoutEnding l)) (l := lines)
        obtain ⟨line, rest, hline⟩ := List.exists_cons_of_ne_nil hdrop
        have hhead := List.head?_dropWhile_not
          (fun l => !d.isBoundaryLine (Line.withoutEnding l)) lines
        rw [hline] at happend hhead
        refine ⟨header, _, line, rest, by rw [happend], fun l hl => ?_, ?_, by rw [hline]⟩
        · simpa using List.mem_takeWhile_imp hl
        · simpa using hhead
  · rintro ⟨header, declarations, line, trailing, rfl, hinside, hline, rfl⟩
    have hall : ∀ l ∈ declarations, (!d.isBoundaryLine (Line.withoutEnding l)) = true :=
      fun l hl => by simp [hinside l hl]
    have htake : (declarations ++ line :: trailing).takeWhile
        (fun l => !d.isBoundaryLine (Line.withoutEnding l)) = declarations := by
      rw [List.takeWhile_append_of_pos hall]
      simp [hline]
    have hdrop : (declarations ++ line :: trailing).dropWhile
        (fun l => !d.isBoundaryLine (Line.withoutEnding l)) = line :: trailing := by
      rw [List.dropWhile_append_of_pos hall]
      simp [hline]
    simp only [ofLines, htake, hdrop]

/-! ### Chunks of lines -/

inductive Chunk where
  | outside (lines : List Text)
  | block (lines : List Text)

def Chunk.lines : Chunk → List Text
  | outside lines => lines
  | block lines => lines

/-- The lines are divided into chunks. A chunk outside any block is a macro definition, which may
run to the end, or a single line; after a block there is a blank line. -/
inductive Chunks : List Text → List Chunk → Prop where
  | nil : Chunks [] []
  | macroClosed {line close : Text} {inner rest : List Text} {chunks : List Chunk}
      (opens : Line.opensMacro line = true) (inside : ∀ l ∈ inner, Line.closesMacro l = false)
      (closes : Line.closesMacro close = true) : Chunks rest chunks →
      Chunks (line :: (inner ++ close :: rest)) (.outside (line :: (inner ++ [close])) :: chunks)
  | macroOpen {line : Text} {inner : List Text} (opens : Line.opensMacro line = true)
      (inside : ∀ l ∈ inner, Line.closesMacro l = false) :
      Chunks (line :: inner) [.outside (line :: inner)]
  | block {line blank : Text} {body rest : List Text} {chunks : List Chunk}
      (plain : Line.opensMacro line = false) (declares : Line.isDeclaration line = true)
      (filled : ∀ l ∈ body, Line.isBlank l = false) (ends : Line.isBlank blank = true) :
      Chunks (blank :: rest) chunks →
      Chunks (line :: (body ++ blank :: rest)) (.block (line :: body) :: chunks)
  | outside {line : Text} {rest : List Text} {chunks : List Chunk}
      (plain : Line.opensMacro line = false) (silent : Line.isDeclaration line = false) :
      Chunks rest chunks → Chunks (line :: rest) (.outside [line] :: chunks)

theorem Chunks.lines_eq {lines : List Text} {chunks : List Chunk} (h : Chunks lines chunks) :
    chunks.flatMap Chunk.lines = lines := by
  induction h with
  | nil => rfl
  | macroClosed _ _ _ _ ih => simp [Chunk.lines, ih]
  | macroOpen => simp [Chunk.lines]
  | block _ _ _ _ _ ih => simp [Chunk.lines, ih]
  | outside _ _ _ ih => simp [Chunk.lines, ih]

/-- The parts of a document with these chunks, the first of them after the lines `skipped`. -/
def assemble (start : Nat) (skipped : List Text) : List Chunk → List Part
  | [] => Part.ofSkipped start skipped
  | .outside lines :: chunks => assemble start (skipped ++ lines) chunks
  | .block lines :: chunks =>
    Part.ofSkipped start skipped ++ .block ⟨start + skipped.length, lines⟩ ::
      assemble (start + skipped.length + lines.length) [] chunks

theorem findIdx?_append_cons {p : Text → Bool} {before after : List Text} {line : Text}
    (hb : ∀ l ∈ before, p l = false) (hl : p line = true) :
    (before ++ line :: after).findIdx? p = some before.length := by
  induction before with
  | nil => simp [List.findIdx?_cons, hl]
  | cons l before ih =>
    obtain ⟨hl, hb⟩ := List.forall_mem_cons.1 hb
    simp [List.findIdx?_cons, hl, ih hb]

theorem exists_of_findIdx? {p : Text → Bool} {lines : List Text} {i : Nat}
    (h : lines.findIdx? p = some i) : ∃ before line after, lines = before ++ line :: after ∧
      before.length = i ∧ (∀ l ∈ before, p l = false) ∧ p line = true := by
  induction lines generalizing i with
  | nil => simp at h
  | cons l lines ih =>
    rw [List.findIdx?_cons] at h
    split at h
    next hl =>
      obtain rfl := Option.some.inj h
      exact ⟨[], l, lines, rfl, rfl, by simp, hl⟩
    next hl =>
      obtain ⟨j, hj, rfl⟩ := Option.map_eq_some_iff.1 h
      obtain ⟨before, line, after, rfl, rfl, hb, hline⟩ := ih hj
      exact ⟨l :: before, line, after, rfl, rfl, List.forall_mem_cons.2 ⟨by simpa using hl, hb⟩,
        hline⟩

theorem take_append_cons (before after : List Text) (line : Text) :
    (before ++ line :: after).take (before.length + 1) = before ++ [line] := by
  rw [List.append_cons]
  exact List.take_left' (by simp)

theorem drop_append_cons (before after : List Text) (line : Text) :
    (before ++ line :: after).drop (before.length + 1) = after := by
  rw [List.append_cons]
  exact List.drop_left' (by simp)

namespace Part

/-- Lines in chunks are divided into the parts that the chunks make. -/
theorem extractFrom_of_chunks {lines : List Text} {chunks : List Chunk} (h : Chunks lines chunks)
    (start : Nat) (skipped : List Text) :
    extractFrom start skipped lines = .ok (assemble start skipped chunks) := by
  induction h generalizing start skipped with
  | nil =>
    rw [extractFrom]
    rfl
  | @macroClosed line close inner rest chunks opens inside closes h ih =>
    have hlength : macroLength (inner ++ close :: rest) = inner.length + 1 := by
      rw [macroLength, findIdx?_append_cons inside closes]
    rw [extractFrom, if_pos opens]
    simp only [hlength, take_append_cons, drop_append_cons, ih]
    rfl
  | @macroOpen line inner opens inside =>
    have hlength : macroLength inner = inner.length := by
      rw [macroLength, List.findIdx?_eq_none_iff.2 inside]
    rw [extractFrom, if_pos opens]
    simp only [hlength, List.take_length, List.drop_length]
    rw [extractFrom]
    rfl
  | @block line blank body rest chunks plain declares filled ends h ih =>
    rw [extractFrom, if_neg (by simp [plain]), if_pos declares, findIdx?_append_cons filled ends]
    simp only [List.take_left, List.drop_left, ih, Except.map, assemble, Stretch.range,
      List.length_cons]
  | @outside line rest chunks plain silent h ih =>
    rw [extractFrom, if_neg (by simp [plain]), if_neg (by simp [silent]), ih]
    rfl

/-- The macro whose first line stands before `rest` is open to the end, or a line closes it. -/
theorem macroLength_cases (rest : List Text) :
    (rest.take (macroLength rest) = rest ∧ rest.drop (macroLength rest) = [] ∧
      ∀ l ∈ rest, Line.closesMacro l = false) ∨
    ∃ inner close after, rest = inner ++ close :: after ∧
      rest.take (macroLength rest) = inner ++ [close] ∧ rest.drop (macroLength rest) = after ∧
      (∀ l ∈ inner, Line.closesMacro l = false) ∧ Line.closesMacro close = true := by
  cases hf : rest.findIdx? Line.closesMacro with
  | none =>
    have hlength : macroLength rest = rest.length := by simp [macroLength, hf]
    rw [hlength, List.take_length, List.drop_length]
    exact .inl ⟨rfl, rfl, List.findIdx?_eq_none_iff.1 hf⟩
  | some i =>
    obtain ⟨inner, close, after, rfl, rfl, inside, closes⟩ := exists_of_findIdx? hf
    have hlength : macroLength (inner ++ close :: after) = inner.length + 1 := by
      simp [macroLength, hf]
    rw [hlength, take_append_cons, drop_append_cons]
    exact .inr ⟨inner, close, after, rfl, rfl, rfl, inside, closes⟩

theorem exists_chunks {start : Nat} {skipped lines : List Text} {parts : List Part}
    (h : extractFrom start skipped lines = .ok parts) :
    ∃ chunks, Chunks lines chunks ∧ parts = assemble start skipped chunks := by
  fun_induction extractFrom start skipped lines generalizing parts with
  | case1 start skipped => exact ⟨[], .nil, (Except.ok.inj h).symm⟩
  | case2 start skipped line rest opens length =>
    rename_i ih
    obtain ⟨chunks, hchunks, rfl⟩ := ih h
    rcases macroLength_cases rest with
      ⟨htake, hdrop, inside⟩ | ⟨inner, close, after, rfl, htake, hdrop, inside, closes⟩
    · rw [hdrop] at hchunks
      cases hchunks with
      | nil =>
        refine ⟨_, .macroOpen opens inside, ?_⟩
        rw [htake]
        rfl
    · rw [hdrop] at hchunks
      refine ⟨_, .macroClosed opens inside closes hchunks, ?_⟩
      rw [htake]
      rfl
  | case3 => simp at h
  | case4 start skipped line rest plain declares length hf stretch =>
    rename_i ih
    obtain ⟨body, blank, after, rfl, rfl, filled, ends⟩ := exists_of_findIdx? hf
    rw [List.drop_left] at h ih
    cases htail : extractFrom stretch.range.stop [] (blank :: after) with
    | error e => simp [htail, Except.map] at h
    | ok tail =>
      obtain ⟨chunks, hchunks, rfl⟩ := ih htail
      refine ⟨_, .block (by simpa using plain) declares filled ends hchunks, ?_⟩
      rw [htail] at h
      rw [← Except.ok.inj h]
      simp [assemble, stretch, Stretch.range]
  | case5 start skipped line rest plain silent ih =>
    obtain ⟨chunks, hchunks, rfl⟩ := ih h
    exact ⟨_, .outside (by simpa using plain) (by simpa using silent) hchunks, rfl⟩

end Part

theorem lines_ofSkipped (start : Nat) (lines : List Text) :
    ((Part.ofSkipped start lines).flatMap fun p => p.stretch.lines) = lines := by
  cases lines <;> simp [Part.ofSkipped, Part.stretch]

/-- The parts hold the lines of the chunks, all and in order. -/
theorem lines_assemble (start : Nat) (skipped : List Text) (chunks : List Chunk) :
    ((assemble start skipped chunks).flatMap fun p => p.stretch.lines) =
      skipped ++ chunks.flatMap Chunk.lines := by
  induction chunks generalizing start skipped with
  | nil => simp [assemble, lines_ofSkipped]
  | cons chunk chunks ih =>
    cases chunk with
    | outside lines => simp [assemble, ih, Chunk.lines]
    | block lines =>
      rw [assemble, List.flatMap_append, lines_ofSkipped, List.flatMap_cons, ih]
      simp [Part.stretch, Chunk.lines]

theorem lines_of_extract {lines : Stretch} {parts : List Part} (h : Part.extract lines = .ok parts) :
    (parts.flatMap fun p => p.stretch.lines) = lines.lines := by
  obtain ⟨chunks, hchunks, rfl⟩ := Part.exists_chunks h
  rw [lines_assemble, hchunks.lines_eq, List.nil_append]

theorem lines_of_reads {d : Dialect} {lines : Stretch} {parts : List Part} {segments : List Segment}
    {records : List Record} (hparts : Part.extract lines = .ok parts)
    (hreads : Reads d parts segments records) :
    (segments.flatMap fun s => s.stretch.lines) = lines.lines := by
  have hstretches : (segments.map Segment.stretch).flatMap Stretch.lines =
      (parts.map Part.stretch).flatMap Stretch.lines := by
    rw [hreads.stretches_eq]
  rw [List.flatMap_map, List.flatMap_map] at hstretches
  exact hstretches.trans (lines_of_extract hparts)

/-- The lines of the source are the header, the lines of the segments and the trailing section. -/
theorem Model.split_of_load {d : Dialect} {source : Text} {m : Model}
    (h : load d source = .ok m) : Line.split source = m.document.sections.header ::
      ((m.document.segments.flatMap fun s => s.stretch.lines) ++
        m.document.sections.trailing.lines) := by
  obtain ⟨sections, parts, segments, records, hsections, hparts, hreads, -, rfl⟩ :=
    load_eq_ok_iff.1 h
  obtain ⟨header, declarations, line, trailing, hlines, -, -, rfl⟩ :=
    Sections.ofLines_eq_ok_iff.1 hsections
  rw [hlines, lines_of_reads hparts hreads]

/-- The header, the segments and the trailing section of a loaded document are its text. -/
theorem Model.source_of_load {d : Dialect} {source : Text} {m : Model}
    (h : load d source = .ok m) : m.document.sections.header ++
      (m.document.segments.flatMap fun s => s.stretch.lines).flatten ++
      m.document.sections.trailing.lines.flatten = source := by
  refine Eq.trans ?_ (Line.split_flatten source)
  rw [split_of_load h]
  simp

end StockFlow
