import StockFlow.Proofs.Reloading

/-! The shape of written blocks. Whatever a variable is after some edits, the first of its lines is a
declaration, no other line is, and none is blank. Nor is a line a boundary, but for one case: the
boundary character may be an underscore, and a name may consist of underscores, so that without an
operator the line with the name looks like the end of the variables. -/
namespace StockFlow

/-! ### Dialects with another boundary -/

/-- Options that are accepted are accepted with any boundary mark. -/
theorem Options.compile_boundary {o : Options} {d : Dialect} (h : o.compile = .ok d) {c : Char}
    (hc : isBoundaryMark c = true) :
    { o with boundary := c }.compile = .ok { d with boundary := c, boundary_mark := hc } := by
  unfold compile at h ⊢
  split at h
  next stock placeholder hstock hplaceholder =>
    split at h
    · split at h
      next hwidth =>
        obtain rfl := Except.ok.inj h
        simp [hstock, hplaceholder, hc, hwidth]
      · simp at h
    · simp at h
  · simp at h

namespace Block

/-- The first line declares a variable, no other line does, and none is blank. -/
inductive DeclaresOnce : List Text → Prop where
  | intro {line : Text} {body : List Text} (declares : Line.isDeclaration line = true)
      (silent : ∀ l ∈ body, Line.isDeclaration l = false)
      (filled : ∀ l ∈ line :: body, Line.isBlank l = false) : DeclaresOnce (line :: body)

/-- The line that declares the record is a boundary line. -/
def LooksLikeBoundary (d : Dialect) (r : Record) : Prop :=
  d.boundary = '_' ∧ r.operator = .none ∧ ∀ c ∈ r.name, c = '_'

variable {d : Dialect} {r : Record}

theorem declaresOnce_write (h : IsAuthored d r) (hd : Line.isDeclaration r.name = true)
    (ending : Newline) : DeclaresOnce (write d ending r) := by
  have hcontinues {l : Text} (hl : l ∈ (write d ending r).tail) :=
    continues_of_mem_write h ending hl
  rw [write_eq] at hcontinues ⊢
  have hline : Line.isDeclaration (r.name ++ r.operator.symbol ++ ending.text) = true :=
    Line.isDeclaration_append (Line.isDeclaration_append hd _) _
  have hfilled : Line.isBlank (r.name ++ r.operator.symbol ++ ending.text) = false := by
    by_contra hblank
    rw [Line.not_isDeclaration_of_isBlank (by simpa using hblank)] at hline
    exact Bool.false_ne_true hline
  exact .intro hline (fun l hl => (hcontinues hl).2.1)
    (List.forall_mem_cons.2 ⟨hfilled, fun l hl => (hcontinues hl).1⟩)

theorem isBoundaryLine_declaration (hd : Line.isDeclaration r.name = true) :
    d.isBoundaryLine (r.name ++ r.operator.symbol) = true ↔ LooksLikeBoundary d r := by
  constructor
  · intro hb
    have hmark : d.boundary = '_' := by
      by_contra hne
      rw [inside_of_isDeclaration hne hd] at hb
      exact Bool.false_ne_true hb
    have hall : ∀ c ∈ r.name ++ r.operator.symbol, c = '_' := by
      simp only [Dialect.isBoundaryLine, hmark, Bool.and_eq_true, List.all_eq_true, beq_iff_eq] at hb
      exact hb.2
    refine ⟨hmark, ?_, fun c hc => hall c (List.mem_append_left _ hc)⟩
    cases hop : r.operator with
    | none => rfl
    | equals => simpa [hop, Operator.symbol] using hall '='
    | data => simpa [hop, Operator.symbol] using hall ':'
    | subscriptRange => simpa [hop, Operator.symbol] using hall ':'
  · rintro ⟨hmark, hop, hname⟩
    obtain ⟨c, rest, heq, -⟩ := Line.isDeclaration_iff.1 hd
    simp only [Dialect.isBoundaryLine, hop, Operator.symbol, List.append_nil, hmark,
      Bool.and_eq_true, List.all_eq_true, beq_iff_eq]
    exact ⟨by simp [heq], hname⟩

/-- The boundary lines among those that are written. -/
theorem boundary_of_mem_write (h : IsAuthored d r) (hd : Line.isDeclaration r.name = true)
    (ending : Newline) {l : Text} (hl : l ∈ write d ending r) :
    d.isBoundaryLine (Line.withoutEnding l) = true ↔
      l = r.name ++ r.operator.symbol ++ ending.text ∧ LooksLikeBoundary d r := by
  have hfirst := withoutEnding_declaration h.nameEnds r.operator ending
  have hdeclared := isBoundaryLine_declaration (d := d) hd
  constructor
  · intro hb
    rw [write_eq] at hl
    rcases List.mem_cons.1 hl with rfl | hl
    · exact ⟨rfl, hdeclared.1 (hfirst ▸ hb)⟩
    · rw [(continues_of_mem_write h ending (by rwa [write_eq])).2.2] at hb
      exact absurd hb Bool.false_ne_true
  · rintro ⟨rfl, hboundary⟩
    rw [hfirst]
    exact hdeclared.2 hboundary

end Block

namespace Model

section Edited

variable {d : Dialect} {source : Text} {m : Model} (h : load d source = .ok m)
  (steps : List (Text × Edit)) {k : Text} {r : Record}
  (hr : (m.after steps).graph.find? k = some r)

include h hr

theorem isAuthored_after : IsAuthored d r := by
  have hm := (evolved_of_load h).after steps
  have hauthored := hm.authored hr
  rwa [hm.dialect, dialect_of_load h] at hauthored

/-- Whatever a variable is after some edits, the first of the lines that are written of it declares
it, no other line declares anything, and none is blank. A line ends the variables only if it is the
first and its name is made of the boundary character. -/
theorem written_block_shape (ending : Newline) : Block.DeclaresOnce (Block.write d ending r) ∧
    ∀ l ∈ Block.write d ending r, d.isBoundaryLine (Line.withoutEnding l) = true ↔
      l = r.name ++ r.operator.symbol ++ ending.text ∧ Block.LooksLikeBoundary d r := by
  have hauthored := isAuthored_after h steps hr
  have hd := isDeclaration_after h steps hr
  exact ⟨Block.declaresOnce_write hauthored hd ending,
    fun l hl => Block.boundary_of_mem_write hauthored hd ending hl⟩

end Edited

/-- The standard dialect with an underscore for a boundary, and a document in it whose variable is
named by an underscore. -/
def underscored : Dialect := { Dialect.standard with boundary := '_', boundary_mark := by decide }

def underscoredBlock : List Text := ["_(1)\n", "\t~\tu\n", "\t~\tc\n", "\t|\n"].map String.toList

def underscoredSource : Text := "\x7bUTF-8\x7d\n_(1)\n\t~\tu\n\t~\tc\n\t|\n\n__\n".toList

theorem underscored_compiled :
    { Options.standard with boundary := '_' }.compile = .ok underscored :=
  Options.compile_boundary Dialect.compile_standard (by decide)

def underscoredEquation : Text := ['(', '1', ')']

theorem underscored_declared :
    Block.declared? (['_'] ++ underscoredEquation) = some (['_'], underscoredEquation) :=
  Block.declared?_append (.name (.bare (by decide) (by decide))) (Piece.endsName_cons (by simp) _)

theorem underscored_depends : ∃ parents,
    dependencies underscored .none (Line.join none none [underscoredEquation]) =
      .ok (underscoredEquation, parents) := by
  have hstock : underscored.callsStock underscoredEquation = false := by decide
  have hplaceholder : underscored.callsPlaceholder underscoredEquation = false := by decide
  have hchecked : checkStock underscored underscoredEquation = .ok () := by
    rw [checkStock, if_neg (by simp [hstock])]
  have hjoin : Line.join none none [underscoredEquation] = underscoredEquation := by decide
  rw [hjoin]
  exact ⟨_, dependencies_eq_ok_iff.2 (.equation (by decide) hplaceholder hchecked)⟩

theorem underscoredBlock_read :
    ∃ r, Block.read underscored ⟨1, underscoredBlock⟩ = .ok r ∧ r.name = ['_'] ∧
      r.operator = .none := by
  obtain ⟨parents, hdepends⟩ := underscored_depends
  exact ⟨_, Block.read_eq_ok_iff.2 (@Block.IsRead.intro underscored _ _ _ "\t~\tu\n".toList
    "\t~\tc\n".toList _ [] [] ["\t|\n".toList] _ underscored_declared (by simp) (by decide)
    (by simp) (by decide) hdepends), rfl, rfl⟩

theorem underscored_loads : ∃ m r, load underscored underscoredSource = .ok m ∧
    m.graph.find? ['_'] = some r ∧ Block.LooksLikeBoundary underscored r := by
  obtain ⟨r, hread, hname, hop⟩ := underscoredBlock_read
  have hchunks : Chunks (underscoredBlock ++ [['\n']])
      [.block underscoredBlock, .outside [['\n']]] :=
    .block (by decide) (by decide) (by decide) (by decide)
      (.outside (by decide) (by decide) .nil)
  have hsections : Sections.ofLines underscored (Line.split underscoredSource) =
      .ok ⟨"\x7bUTF-8\x7d\n".toList, ⟨1, underscoredBlock ++ [['\n']]⟩, ⟨6, ["__\n".toList]⟩⟩ := rfl
  have hload := load_eq_ok_iff.2 ⟨_, _, _, [r], hsections, Part.extractFrom_of_chunks hchunks 1 [],
    .block hread (.verbatim .nil), by simp, rfl⟩
  have hfind := Graph.authored_rebuilt underscored [r] ['_']
  rw [List.find?_cons_of_pos (by simp [hname])] at hfind
  obtain ⟨s, hs, heq⟩ := Option.map_eq_some_iff.1 hfind
  refine ⟨_, s, hload, hs, rfl, ?_, ?_⟩
  · exact (congrArg Record.operator heq).trans hop
  · rw [Record.name_eq_of_authored heq, hname]
    simp

/-- A comment that looks like the end of the block and of the variables. -/
def underscoredEdits : List (Text × Edit) :=
  [(['_'], ⟨none, none, some "a |\n\n__\n_ = 1\n\t~\t\"".toList⟩)]

theorem underscored_block_shape : ∃ m r, load underscored underscoredSource = .ok m ∧
    (m.after underscoredEdits).graph.find? ['_'] = some r ∧
    Block.DeclaresOnce (Block.write underscored .lf r) ∧
    ∀ l ∈ Block.write underscored .lf r,
      underscored.isBoundaryLine (Line.withoutEnding l) = true ↔
        l = r.name ++ r.operator.symbol ++ ['\n'] ∧ Block.LooksLikeBoundary underscored r := by
  obtain ⟨m, old, hm, hold, -⟩ := underscored_loads
  have hr : ((m.after underscoredEdits).graph.find? ['_']).isSome = true := by
    rw [((evolved_of_load hm).after underscoredEdits).names, hold]
    rfl
  obtain ⟨r, hr⟩ := Option.isSome_iff_exists.1 hr
  exact ⟨m, r, hm, hr, written_block_shape hm underscoredEdits hr .lf⟩

/-- The line with the name of that variable is a boundary, even before any edit. -/
theorem not_all_written_inside : ¬ ∀ (o : Options) (d : Dialect) (source : Text) (m : Model)
    (steps : List (Text × Edit)) (k : Text) (r : Record) (ending : Newline), o.compile = .ok d →
      load d source = .ok m → (m.after steps).graph.find? k = some r →
      Block.DeclaresOnce (Block.write d ending r) ∧
        ∀ l ∈ Block.write d ending r, d.isBoundaryLine (Line.withoutEnding l) = false := by
  intro hall
  obtain ⟨m, r, hm, hr, hboundary⟩ := underscored_loads
  obtain ⟨-, hinside⟩ := hall _ _ _ m [] ['_'] r .lf underscored_compiled hm hr
  have hfirst : r.name ++ r.operator.symbol ++ Newline.lf.text ∈
      Block.write underscored .lf r := by
    rw [Block.write_eq]
    exact .head _
  have hends := (Block.boundary_of_mem_write (isAuthored_after hm [] hr)
    (isDeclaration_after hm [] hr) .lf hfirst).2 ⟨rfl, hboundary⟩
  rw [hinside _ hfirst] at hends
  exact Bool.false_ne_true hends

end Model

end StockFlow
