import StockFlow.Model.Export
import StockFlow.Proofs.Runs
import StockFlow.Proofs.Written

/-! What is read of a line is its contents, the line without its ending. Here `f` gives other
endings to lines: every kind of line, every block, every division into sections and parts and every
fault is the same after it, and a model that is loaded after it is the model that was loaded before,
with `f` on the lines of its document. -/
namespace StockFlow

/-! ### Kinds of lines -/

namespace Line

theorem exists_ending (line : Text) :
    ∃ s, line = withoutEnding line ++ s ∧ ∀ c ∈ s, c = '\n' ∨ c = '\r' := by
  obtain ⟨s, hs, hend⟩ := Text.exists_dropTrailing (fun c => c == '\n' || c == '\r') line
  exact ⟨s, hs, fun c hc => by simpa using hend c hc⟩

theorem withoutEnding_withoutEnding (line : Text) :
    withoutEnding (withoutEnding line) = withoutEnding line :=
  Text.dropTrailing_eq_self (Text.last_dropTrailing _ line)

theorem isBlank_withoutEnding (line : Text) : isBlank (withoutEnding line) = isBlank line := by
  rw [isBlank, isBlank, trim_withoutEnding]

theorem isDeclaration_withoutEnding (line : Text) :
    isDeclaration (withoutEnding line) = isDeclaration line := by
  rw [Bool.eq_iff_iff]
  constructor
  · intro h
    obtain ⟨c, rest, hline, hc⟩ := isDeclaration_iff.1 h
    have hhead : (withoutEnding line).head? = some c := by rw [hline]; rfl
    obtain ⟨more, hmore⟩ := List.head?_eq_some_iff.1 (head?_of_withoutEnding hhead)
    exact isDeclaration_iff.2 ⟨c, more, hmore, hc⟩
  · intro h
    rw [isDeclaration, Block.head?_withoutEnding h]
    exact h

/-- After its blanks a line begins as its contents do, and goes on with nothing but the ending. -/
theorem trimStart_withoutEnding (line : Text) :
    ∃ s, line.trimStart = (withoutEnding line).trimStart ++ s ∧ ∀ c ∈ s, c = '\n' ∨ c = '\r' := by
  obtain ⟨s, hs, hend⟩ := exists_ending line
  by_cases hw : (withoutEnding line).trimStart = []
  · refine ⟨s.trimStart, ?_, fun c hc => hend c ((List.dropWhile_sublist _).subset hc)⟩
    rw [hw, List.nil_append]
    conv_lhs => rw [hs]
    exact Text.trimStart_append_of_blank (List.dropWhile_eq_nil_iff.1 hw)
  · refine ⟨s, ?_, hend⟩
    conv_lhs => rw [hs]
    rw [Text.trimStart, List.dropWhile_append, if_neg (by simpa [Text.trimStart] using hw)]
    rfl

theorem isDelimiter_withoutEnding (line : Text) :
    isDelimiter (withoutEnding line) = isDelimiter line := by
  obtain ⟨s, hs, hend⟩ := trimStart_withoutEnding line
  rw [isDelimiter, isDelimiter, hs]
  cases (withoutEnding line).trimStart with
  | cons c rest => rfl
  | nil =>
    cases s with
    | nil => rfl
    | cons c s => rcases hend c (.head _) with rfl | rfl <;> rfl

theorem opensWith_iff {keyword : String} {line : Text} : opensWith keyword line = true ↔
    keyword.toList.map Char.toLower <+: line.trimStart.map Char.toLower := by
  rw [List.prefix_iff_eq_take, opensWith, beq_iff_eq, List.map_take, List.length_map]
  exact eq_comm

theorem opensWith_withoutEnding {keyword : String}
    (h : '\n' ∉ keyword.toList.map Char.toLower ∧ '\r' ∉ keyword.toList.map Char.toLower)
    (line : Text) : opensWith keyword (withoutEnding line) = opensWith keyword line := by
  obtain ⟨s, hs, hend⟩ := trimStart_withoutEnding line
  rw [Bool.eq_iff_iff, opensWith_iff, opensWith_iff, hs, List.map_append]
  refine ⟨fun hp => hp.trans (List.prefix_append _ _), fun hp => ?_⟩
  rcases List.prefix_or_prefix_of_prefix hp (List.prefix_append _ _) with hp' | ⟨rest, hrest⟩
  · exact hp'
  -- Otherwise the keyword would go on into the ending.
  · rw [← hrest, List.prefix_append_right_inj] at hp
    cases rest with
    | nil => simp [← hrest]
    | cons c rest =>
      obtain ⟨d, hd, rfl⟩ := List.mem_map.1 (hp.subset (.head _))
      have hkeyword : d.toLower ∈ keyword.toList.map Char.toLower := by simp [← hrest]
      rcases hend d hd with rfl | rfl
      · exact absurd hkeyword h.1
      · exact absurd hkeyword h.2

theorem opensMacro_withoutEnding (line : Text) :
    opensMacro (withoutEnding line) = opensMacro line :=
  opensWith_withoutEnding (by decide) line

theorem closesMacro_withoutEnding (line : Text) :
    closesMacro (withoutEnding line) = closesMacro line :=
  opensWith_withoutEnding (by decide) line

end Line

/-! ### Lines with other endings -/

def Stretch.map (f : Text → Text) (s : Stretch) : Stretch := { s with lines := s.lines.map f }

def Sections.map (f : Text → Text) (s : Sections) : Sections :=
  ⟨f s.header, s.declarations.map f, s.trailing.map f⟩

def Part.map (f : Text → Text) : Part → Part
  | verbatim stretch => verbatim (stretch.map f)
  | block stretch => block (stretch.map f)

def Segment.map (f : Text → Text) : Segment → Segment
  | verbatim stretch => verbatim (stretch.map f)
  | block name stretch => block name (stretch.map f)

section Maps

variable (f : Text → Text)

theorem Stretch.range_map (s : Stretch) : (s.map f).range = s.range := by
  simp [Stretch.range, Stretch.map]

theorem Segment.name?_map (s : Segment) : (s.map f).name? = s.name? := by cases s <;> rfl

theorem Segment.stretch_map (s : Segment) : (s.map f).stretch = s.stretch.map f := by
  cases s <;> rfl

theorem Segment.find?_map (name : Text) (segments : List Segment) :
    find? name (segments.map (Segment.map f)) = (find? name segments).map (Stretch.map f) := by
  have hname : (fun s : Segment => s.name? == some name) ∘ Segment.map f =
      fun s => s.name? == some name :=
    funext fun s => by rw [Function.comp_apply, name?_map]
  have hstretch : Segment.stretch ∘ Segment.map f = Stretch.map f ∘ Segment.stretch :=
    funext fun s => stretch_map f s
  rw [find?, List.find?_map, hname, Option.map_map, hstretch, ← Option.map_map]
  rfl

end Maps

/-- Lines get other endings and keep what stands before them. -/
def KeepsContents (f : Text → Text) : Prop :=
  ∀ line, Line.withoutEnding (f line) = Line.withoutEnding line

theorem keepsContents_withoutEnding : KeepsContents Line.withoutEnding :=
  Line.withoutEnding_withoutEnding

namespace KeepsContents

section Lines

variable {f : Text → Text} (hf : KeepsContents f)
include hf

/-- What does not depend on the ending of a line is the same with another ending. -/
theorem comp_eq {α : Type} {p : Text → α} (hp : ∀ line, p (Line.withoutEnding line) = p line) :
    p ∘ f = p := by
  funext line
  rw [Function.comp_apply, ← hp (f line), hf, hp]

theorem isBlank : Line.isBlank ∘ f = Line.isBlank := hf.comp_eq Line.isBlank_withoutEnding

theorem isDeclaration (line : Text) : Line.isDeclaration (f line) = Line.isDeclaration line :=
  congrFun (hf.comp_eq Line.isDeclaration_withoutEnding) line

theorem isDelimiter (line : Text) : Line.isDelimiter (f line) = Line.isDelimiter line :=
  congrFun (hf.comp_eq Line.isDelimiter_withoutEnding) line

theorem opensMacro (line : Text) : Line.opensMacro (f line) = Line.opensMacro line :=
  congrFun (hf.comp_eq Line.opensMacro_withoutEnding) line

theorem closesMacro : Line.closesMacro ∘ f = Line.closesMacro :=
  hf.comp_eq Line.closesMacro_withoutEnding

theorem pieces (head tail : Option Mark) (lines : List Text) :
    Line.pieces head tail (lines.map f) = Line.pieces head tail lines := by
  induction lines with
  | nil => rfl
  | cons line lines ih =>
    cases lines with
    | nil => simp only [List.map, Line.pieces, Line.lastPiece, hf line]
    | cons next lines =>
      simp only [List.map, Line.pieces, Line.innerPiece, hf line] at ih ⊢
      rw [ih]

theorem join (head tail : Option Mark) (lines : List Text) :
    Line.join head tail (lines.map f) = Line.join head tail lines := by
  rw [Line.join, hf.pieces]
  rfl

end Lines

end KeepsContents

theorem Line.join_congr {head tail : Option Mark} {lines lines' : List Text}
    (h : lines.map withoutEnding = lines'.map withoutEnding) :
    join head tail lines = join head tail lines' := by
  rw [← keepsContents_withoutEnding.join, h, keepsContents_withoutEnding.join]

namespace KeepsContents

variable {f : Text → Text} (hf : KeepsContents f)
include hf

/-! ### Blocks -/

theorem delimit? (lines : List Text) : Block.delimit? (lines.map f) =
    (Block.delimit? lines).map fun (before, line, after) => (before.map f, f line, after.map f) := by
  induction lines with
  | nil => rfl
  | cons line lines ih =>
    rw [List.map_cons, Block.delimit?, Block.delimit?, hf.isDelimiter, ih]
    split
    · rfl
    · cases Block.delimit? lines <;> rfl

theorem read (d : Dialect) (block : Stretch) :
    Block.read d (block.map f) = Block.read d block := by
  obtain ⟨start, lines⟩ := block
  have hrange := Stretch.range_map f ⟨start, lines⟩
  -- The equation starts with what is left of a line, which `f` has not been applied to.
  have hequation (line : Text) (lines : List Text) :
      Line.join none none (line :: lines.map f) = Line.join none none (line :: lines) :=
    Line.join_congr (by simp [hf.comp_eq Line.withoutEnding_withoutEnding])
  have hfield (head tail : Option Mark) (line : Text) (lines : List Text) :
      Line.join head tail (f line :: lines.map f) = Line.join head tail (line :: lines) :=
    hf.join head tail (line :: lines)
  cases lines with
  | nil => rfl
  | cons first lines =>
    simp only [Block.read, hrange]
    simp only [Stretch.map, List.map_cons, hf first, hf.delimit?]
    cases Block.declared? (Line.withoutEnding first) with
    | none => rfl
    | some declared =>
      cases Block.delimit? lines with
      | none => rfl
      | some untilUnits =>
        obtain ⟨continued, units, lines⟩ := untilUnits
        simp only [Option.map_some, hf.delimit?]
        cases Block.delimit? lines with
        | none => rfl
        | some untilComment => simp only [Option.map_some, hequation, hfield]

/-! ### Documents -/

theorem ofLines (d : Dialect) (lines : List Text) : Sections.ofLines d (lines.map f) =
    (Sections.ofLines d lines).map (Sections.map f) := by
  cases lines with
  | nil => rfl
  | cons header lines =>
    have hinside : (fun l => !d.isBoundaryLine (Line.withoutEnding l)) ∘ f =
        fun l => !d.isBoundaryLine (Line.withoutEnding l) :=
      hf.comp_eq fun l => by rw [Line.withoutEnding_withoutEnding]
    simp only [List.map_cons, Sections.ofLines, List.takeWhile_map, List.dropWhile_map, hinside]
    cases lines.dropWhile fun l => !d.isBoundaryLine (Line.withoutEnding l) with
    | nil => rfl
    | cons line trailing => simp [Sections.map, Stretch.map, Except.map]

theorem extractFrom (start : Nat) (skipped lines : List Text) :
    Part.extractFrom start (skipped.map f) (lines.map f) =
      (Part.extractFrom start skipped lines).map (List.map (Part.map f)) := by
  have hskipped (start : Nat) (lines : List Text) : Part.ofSkipped start (lines.map f) =
      (Part.ofSkipped start lines).map (Part.map f) := by
    cases lines <;> rfl
  fun_induction Part.extractFrom start skipped lines with
  | case1 start skipped =>
    rw [List.map_nil, Part.extractFrom, hskipped]
    rfl
  | case2 start skipped line rest opens length ih =>
    have hlength : Part.macroLength (rest.map f) = length := by
      simp [Part.macroLength, length, List.findIdx?_map, hf.closesMacro]
    rw [List.map_cons, Part.extractFrom, if_pos ((hf.opensMacro line).trans opens)]
    simp only [hlength]
    rw [← ih, List.map_append, List.map_cons, List.map_take, List.map_drop]
  | case3 start skipped line rest plain declares hnone =>
    rw [List.map_cons, Part.extractFrom, if_neg (by rw [hf.opensMacro]; exact plain),
      if_pos ((hf.isDeclaration line).trans declares), List.findIdx?_map, hf.isBlank, hnone]
    simp [hf line, Except.map]
  | case4 start skipped line rest plain declares length hlength stretch ih =>
    rw [List.map_cons, Part.extractFrom, if_neg (by rw [hf.opensMacro]; exact plain),
      if_pos ((hf.isDeclaration line).trans declares), List.findIdx?_map, hf.isBlank, hlength]
    have hstretch : (⟨start + (skipped.map f).length, f line :: (rest.map f).take length⟩ :
        Stretch) = stretch.map f := by
      simp [stretch, Stretch.map]
    rw [List.map_nil] at ih
    simp only [hstretch, Stretch.range_map, ← List.map_drop, ih]
    cases Part.extractFrom stretch.range.stop [] (rest.drop length) with
    | error e => rfl
    | ok parts => simp [Except.map, hskipped, Part.map]
  | case5 start skipped line rest plain silent ih =>
    rw [List.map_cons, Part.extractFrom, if_neg (by rw [hf.opensMacro]; exact plain),
      if_neg (by rw [hf.isDeclaration]; exact silent), ← ih, List.map_append]
    rfl

theorem extract (lines : Stretch) :
    Part.extract (lines.map f) = (Part.extract lines).map (List.map (Part.map f)) :=
  hf.extractFrom lines.start [] lines.lines

end KeepsContents

/-! ### Models -/

namespace Model

variable {f : Text → Text}

def Loading.map (f : Text → Text) (l : Loading) : Loading :=
  { l with segments := l.segments.map (Segment.map f) }

theorem Loading.addPart_map (hf : KeepsContents f) (d : Dialect) (l : Loading) (part : Part) :
    addPart d (l.map f) (part.map f) = (addPart d l part).map f := by
  cases part with
  | verbatim stretch => simp [addPart, Part.map, Loading.map, Segment.map]
  | block stretch =>
    simp only [addPart, Part.map, hf.read]
    cases Block.read d stretch with
    | error error => rfl
    | ok r =>
      simp only [Loading.map, Segment.find?_map]
      cases Segment.find? r.name l.segments with
      | none => simp [Segment.map]
      | some first => simp [fail, Stretch.range_map]

theorem Loading.foldl_map (hf : KeepsContents f) (d : Dialect) (parts : List Part) (l : Loading) :
    (parts.map (Part.map f)).foldl (addPart d) (l.map f) =
      (parts.foldl (addPart d) l).map f := by
  induction parts generalizing l with
  | nil => rfl
  | cons part parts ih =>
    rw [List.map_cons, List.foldl_cons, addPart_map hf, ih, List.foldl_cons]

/-- The model as it is when the lines of its document end differently. -/
def relined (f : Text → Text) (ending : Newline) (m : Model) : Model :=
  { m with
    document := ⟨m.document.sections.map f, m.document.segments.map (Segment.map f), ending⟩ }

theorem load_relined (hf : KeepsContents f) {source source' : Text}
    (h : Line.split source' = (Line.split source).map f) (d : Dialect) :
    load d source' = (load d source).map (relined f (Newline.ofText source')) := by
  unfold load
  rw [h, hf.ofLines]
  cases Sections.ofLines d (Line.split source) with
  | error e => rfl
  | ok sections =>
    have hextract : Part.extract (sections.map f).declarations =
        (Part.extract sections.declarations).map (List.map (Part.map f)) := hf.extract _
    simp only [Except.map, mapError_ok, bind, Except.bind, hextract]
    cases Part.extract sections.declarations with
    | error e => rfl
    | ok parts =>
      have hfold : (parts.map (Part.map f)).foldl (Loading.addPart d) Loading.empty =
          (parts.foldl (Loading.addPart d) Loading.empty).map f :=
        Loading.foldl_map hf d parts Loading.empty
      simp only [mapError_ok, hfold, Loading.map]
      split <;> rfl

theorem names_relined (ending : Newline) (m : Model) :
    (m.relined f ending).document.names = m.document.names := by
  rw [Document.names, relined, List.filterMap_map]
  exact congrFun (congrArg _ (funext (Segment.name?_map f))) _

theorem toJson_relined (ending : Newline) (m : Model) :
    (m.relined f ending).toJson = m.toJson := by
  rw [toJson, records, names_relined]
  rfl

/-- Nothing that an edit reads is in the document. -/
theorem edit_relined (ending : Newline) (m : Model) (name : Text) (e : Edit) :
    (m.relined f ending).edit name e = (m.edit name e).map (relined f ending) := by
  cases hcurrent : m.graph.find? name with
  | none => simp [edit, relined, hcurrent, Except.map]
  | some current =>
    cases happly : e.apply m.dialect current with
    | error error => simp [edit, relined, hcurrent, happly, Except.map]
    | ok r =>
      simp only [edit, relined, hcurrent, happly]
      split
      · rfl
      · cases m.graph.redefine? r <;> rfl

theorem after_relined (ending : Newline) (m : Model) (steps : List (Text × Edit)) :
    (m.relined f ending).after steps = (m.after steps).relined f ending := by
  induction steps generalizing m with
  | nil => rfl
  | cons s steps ih =>
    have hstep : (m.relined f ending).step s = (m.step s).relined f ending := by
      rw [step, step, edit_relined]
      cases m.edit s.1 s.2 <;> rfl
    exact (congrArg (fun m => m.after steps) hstep).trans (ih (m.step s))

end Model

end StockFlow
