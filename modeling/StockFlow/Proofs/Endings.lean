import StockFlow.Proofs.Contents
import StockFlow.Proofs.Reloading

/-! Lines that end with a carriage return and a line feed. A text in which every line feed gets a
carriage return before it has the same lines with other endings, so that it gives the same model or
the same faults; and since a model writes lines as its document ends them, the model is written as
the other one, with a carriage return before every line feed. -/
namespace StockFlow

/-! ### Texts and lines -/

/-- The text with a carriage return before every line feed. -/
def Text.crlf (t : Text) : Text := t.flatMap fun c => if c = '\n' then ['\r', '\n'] else [c]

/-- The line with a carriage return before the line feed that ends it. -/
def Line.crlf (line : Text) : Text := (line.dropLast? '\n').elim line (· ++ ['\r', '\n'])

namespace Text

theorem crlf_append (s t : Text) : crlf (s ++ t) = crlf s ++ crlf t := List.flatMap_append

theorem crlf_flatten (lines : List Text) : crlf lines.flatten = (lines.map crlf).flatten := by
  induction lines with
  | nil => rfl
  | cons line lines ih => rw [List.flatten_cons, crlf_append, ih]; rfl

theorem crlf_eq_self {t : Text} (h : '\n' ∉ t) : crlf t = t := by
  have hmap : t.flatMap (fun c => if c = '\n' then ['\r', '\n'] else [c]) =
      t.flatMap fun c => [c] := by
    refine List.flatMap_congr fun c hc => if_neg ?_
    rintro rfl
    exact h hc
  rw [crlf, hmap, List.flatMap_singleton']

end Text

namespace Line

theorem crlf_terminated (t : Text) : crlf (t ++ ['\n']) = t ++ ['\r', '\n'] := by
  simp [crlf, Text.dropLast?]

theorem crlf_eq_self {line : Text} (h : line.getLast? ≠ some '\n') : crlf line = line := by
  rw [crlf, Text.dropLast?_eq_none h]
  rfl

theorem crlf_cons {c : Char} (hc : c ≠ '\n') (line : Text) : crlf (c :: line) = c :: crlf line := by
  rcases List.eq_nil_or_concat' line with rfl | ⟨t, last, rfl⟩
  · exact crlf_eq_self (by simpa using hc)
  · by_cases hlast : last = '\n'
    · subst hlast
      rw [crlf_terminated, ← List.cons_append, crlf_terminated, List.cons_append]
    · have hrest : crlf (t ++ [last]) = t ++ [last] := crlf_eq_self (by simpa using hlast)
      rw [hrest, ← List.cons_append]
      refine crlf_eq_self ?_
      rw [List.getLast?_concat]
      simpa using hlast

/-- In a line with no line feed but at its end, that one is all that is to be done. -/
theorem crlf_eq {line : Text} (h : '\n' ∉ line.dropLast) : crlf line = line.crlf := by
  rcases List.eq_nil_or_concat' line with rfl | ⟨t, last, rfl⟩
  · rfl
  · rw [List.dropLast_concat] at h
    rw [Text.crlf_append, Text.crlf_eq_self h]
    by_cases hlast : last = '\n'
    · subst hlast
      exact crlf_terminated t
    · rw [crlf_eq_self (by simpa using hlast), Text.crlf_eq_self (by simpa using Ne.symm hlast)]

theorem keepsContents_crlf : KeepsContents crlf := by
  intro line
  rcases List.eq_nil_or_concat' line with rfl | ⟨t, last, rfl⟩
  · rfl
  · by_cases hlast : last = '\n'
    · subst hlast
      rw [crlf_terminated, withoutEnding, withoutEnding, Text.dropTrailing_append (by simp),
        Text.dropTrailing_append (by simp)]
    · rw [crlf_eq_self (by simpa using hlast)]

theorem split_crlf (t : Text) : split t.crlf = (split t).map crlf := by
  induction t with
  | nil => rfl
  | cons c rest ih =>
    by_cases hc : c = '\n'
    · subst hc
      have hcrlf : Text.crlf ('\n' :: rest) = '\r' :: '\n' :: Text.crlf rest := rfl
      simp only [hcrlf, split, ih]
      rfl
    · have hcrlf : Text.crlf (c :: rest) = c :: Text.crlf rest := by
        simp [Text.crlf, hc]
      simp only [hcrlf, split, hc, if_false, ih]
      cases split rest with
      | nil => exact (congrArg (fun l => [l]) (crlf_cons hc [])).symm
      | cons line lines => simp [crlf_cons hc]

end Line

namespace Newline

theorem ofText_of_not_mem {t : Text} (h : '\r' ∉ t) : ofText t = lf := by
  unfold ofText
  split
  next line rest hbreak =>
    obtain ⟨rfl, -⟩ := Text.breakAt?_eq_some hbreak
    exact if_neg fun hlast => h (List.mem_append_left _ (List.mem_of_getLast? hlast))
  next => rfl

theorem ofText_crlf {t : Text} (h : '\n' ∈ t) : ofText t.crlf = crlf := by
  cases hbreak : t.breakAt? '\n' with
  | none => exact absurd h (Text.breakAt?_eq_none.1 hbreak)
  | some parts =>
    obtain ⟨before, after⟩ := parts
    obtain ⟨rfl, hbefore⟩ := Text.breakAt?_eq_some hbreak
    have hcrlf : Text.crlf (before ++ '\n' :: after) = (before ++ ['\r']) ++ '\n' :: Text.crlf after := by
      rw [Text.crlf_append, Text.crlf_eq_self hbefore, List.append_assoc]
      rfl
    rw [ofText, hcrlf, Text.breakAt?_append_cons (by simpa using hbefore)]
    simp

end Newline

/-! ### Models -/

theorem Block.write_crlf (d : Dialect) (r : Record) :
    (write d .lf r).map Line.crlf = write d .crlf r := by
  rw [write, write, List.map_map]
  exact congrFun (congrArg _ (funext Line.crlf_terminated)) _

namespace Model

theorem writtenLines_relined {m : Model} (hending : m.document.ending = .lf) (s : Segment) :
    (m.relined Line.crlf .crlf).writtenLines (s.map Line.crlf) =
      (m.writtenLines s).map Line.crlf := by
  cases s with
  | verbatim stretch => rfl
  | block name stretch =>
    have hgraph : (m.relined Line.crlf .crlf).graph = m.graph := rfl
    have hedited : (m.relined Line.crlf .crlf).edited = m.edited := rfl
    simp only [Segment.map, writtenLines, hgraph, hedited]
    cases m.graph.find? name with
    | none => rfl
    | some r =>
      simp only
      split
      · rw [hending, Block.write_crlf]
        rfl
      · rfl

theorem text_relined {m : Model} (hending : m.document.ending = .lf)
    (hheader : '\n' ∉ m.document.sections.header.dropLast)
    (hsegments : ∀ s ∈ m.document.segments, ∀ l ∈ m.writtenLines s, '\n' ∉ l.dropLast)
    (htrailing : ∀ l ∈ m.document.sections.trailing.lines, '\n' ∉ l.dropLast) :
    (m.relined Line.crlf .crlf).text = m.text.crlf := by
  have hmap {lines : List Text} (h : ∀ l ∈ lines, '\n' ∉ l.dropLast) :
      (lines.map Line.crlf).flatten = Text.crlf lines.flatten := by
    rw [Text.crlf_flatten, List.map_congr_left fun l hl => Line.crlf_eq (h l hl)]
  have hwritten : (m.document.segments.map (Segment.map Line.crlf)).flatMap
      (m.relined Line.crlf .crlf).writtenLines =
        (m.document.segments.flatMap m.writtenLines).map Line.crlf := by
    rw [List.flatMap_map, List.map_flatMap]
    exact List.flatMap_congr fun s _ => writtenLines_relined hending s
  have hlines : ∀ l ∈ m.document.segments.flatMap m.writtenLines, '\n' ∉ l.dropLast := by
    intro l hl
    obtain ⟨s, hs, hl⟩ := List.mem_flatMap.1 hl
    exact hsegments s hs l hl
  rw [text, text, Text.crlf_append, Text.crlf_append, ← hmap hlines, ← hmap htrailing,
    ← Line.crlf_eq hheader, ← hwritten]
  rfl

section Loaded

variable {d : Dialect} {source : Text} {m : Model}

theorem ending_of_load (h : load d source = .ok m) : m.document.ending = Newline.ofText source := by
  obtain ⟨_, _, _, _, -, -, -, -, rfl⟩ := load_eq_ok_iff.1 h
  rfl

/-- A source that can be loaded has a line after the header. -/
theorem mem_of_load (h : load d source = .ok m) : '\n' ∈ source := by
  obtain ⟨sections, _, _, _, hsections, -, -, -, -⟩ := load_eq_ok_iff.1 h
  obtain ⟨header, declarations, line, trailing, hlines, -, -, -⟩ :=
    Sections.ofLines_eq_ok_iff.1 hsections
  have hheader : Line.split source = [] ++ header :: (declarations ++ line :: trailing) := hlines
  obtain ⟨body, -, rfl⟩ := Line.isTerminated_of_split hheader (by simp)
  rw [← Line.split_flatten source, hlines]
  simp

/-- What is written of a block, read or edited, are single lines. -/
theorem not_mem_dropLast_writtenLines (h : load d source = .ok m) (steps : List (Text × Edit))
    {s : Segment} (hs : s ∈ m.document.segments) :
    ∀ l ∈ (m.after steps).writtenLines s, '\n' ∉ l.dropLast := by
  have hread : ∀ l ∈ s.stretch.lines, '\n' ∉ l.dropLast := by
    intro l hl
    refine Line.not_mem_dropLast_of_split (t := source) ?_
    rw [split_of_load h]
    exact .tail _ (List.mem_append_left _ (List.mem_flatMap.2 ⟨s, hs, hl⟩))
  cases s with
  | verbatim stretch => exact hread
  | block name stretch =>
    rcases (m.after steps).writtenLines_block name stretch with hw | ⟨r, hr, -, hw⟩
    · rwa [hw]
    · rw [hw]
      intro l hl
      have hauthored := ((evolved_of_load h).after steps).authored hr
      obtain ⟨body, hbody, rfl⟩ :=
        Block.isTerminated_write hauthored _ (isOneLine_after h steps hr) l hl
      rwa [List.dropLast_concat]

/-- A text without carriage returns and the same text with one before every line feed fail to load
alike, or give models that are alike after any edits: the next edit fails alike, the exports are the
same, and the one is written as the other is, with a carriage return before every line feed. -/
theorem loads_crlf_alike (d : Dialect) {source : Text} (h : '\r' ∉ source) :
    (∀ failure, load d source = .error failure ↔ load d source.crlf = .error failure) ∧
    ∀ m, load d source = .ok m → ∃ m', load d source.crlf = .ok m' ∧
      ∀ steps : List (Text × Edit),
        (∀ name e error, (m.after steps).edit name e = .error error ↔
          (m'.after steps).edit name e = .error error) ∧
        (m'.after steps).toJson = (m.after steps).toJson ∧
        (m'.after steps).text = (m.after steps).text.crlf := by
  have hload := load_relined Line.keepsContents_crlf (Line.split_crlf source) d
  refine ⟨fun failure => ?_, fun m hm => ?_⟩
  · rw [hload]
    cases load d source <;> simp [Except.map]
  · rw [hm, Newline.ofText_crlf (mem_of_load hm)] at hload
    refine ⟨_, hload, fun steps => ?_⟩
    rw [after_relined]
    have hdocument := ((evolved_of_load hm).after steps).document
    have hlines : ∀ l ∈ Line.split source, '\n' ∉ l.dropLast :=
      fun l hl => Line.not_mem_dropLast_of_split hl
    rw [split_of_load hm] at hlines
    obtain ⟨hheader, hlines⟩ := List.forall_mem_cons.1 hlines
    refine ⟨fun name e error => ?_, toJson_relined _ _, text_relined ?_ ?_ ?_ ?_⟩
    · rw [edit_relined]
      cases (m.after steps).edit name e <;> simp [Except.map]
    · rw [hdocument, ending_of_load hm, Newline.ofText_of_not_mem h]
    · rwa [hdocument]
    · rw [hdocument]
      exact fun s hs => not_mem_dropLast_writtenLines hm steps hs
    · rw [hdocument]
      exact fun l hl => hlines l (List.mem_append_right _ hl)

theorem tank_crlf_alike : '\r' ∉ tank ∧ ∃ m m', load .standard tank = .ok m ∧
    load .standard tank.crlf = .ok m' ∧
    (m'.after hostileEdits).text = (m.after hostileEdits).text.crlf := by
  have hplain : '\r' ∉ tank := by decide
  obtain ⟨m, hm⟩ := tank_loads
  obtain ⟨m', hm', hsteps⟩ := (loads_crlf_alike .standard hplain).2 m hm
  exact ⟨hplain, m, m', hm, hm', (hsteps hostileEdits).2.2⟩

end Loaded

end Model

end StockFlow
