import StockFlow.Proofs.Unedited
import StockFlow.Proofs.Written

/-! Blocks written anew among lines that stay. Putting the lines of a block in the place of those of
another keeps the chunks around it apart, because a block ends at the blank line after it whatever
it holds. So the parts of the document are what they were, but for the lines of those blocks. -/
namespace StockFlow

/-! ### Chunks in the place of others -/

/-- The lines of a block can be replaced by those of another. -/
inductive Chunk.Replaces : Chunk → Chunk → Prop where
  | outside (lines : List Text) : Replaces (.outside lines) (.outside lines)
  | block {lines lines' : List Text} : Block.IsBlock lines' → Replaces (.block lines) (.block lines')

theorem Chunks.isBlock {lines : List Text} {chunks : List Chunk} (h : Chunks lines chunks) :
    ∀ block, .block block ∈ chunks → Block.IsBlock block := by
  induction h with
  | nil => simp
  | macroClosed _ _ _ _ ih => simpa using ih
  | macroOpen => simp
  | block _ declares filled _ _ ih =>
    intro block hb
    rcases List.mem_cons.1 hb with heq | hb
    · obtain rfl := Chunk.block.inj heq
      exact .intro declares filled
    · exact ih block hb
  | outside _ _ _ ih => simpa using ih

/-- A blank line stays the first of its chunks. -/
theorem Chunks.cons_of_blank {blank : Text} {rest : List Text} {chunks chunks' : List Chunk}
    (h : Chunks (blank :: rest) chunks) (hb : Line.isBlank blank = true)
    (hr : List.Forall₂ Chunk.Replaces chunks chunks') :
    ∃ rest', chunks'.flatMap Chunk.lines = blank :: rest' := by
  cases h with
  | macroClosed | macroOpen | outside =>
    cases hr with
    | cons hc _ =>
      cases hc
      exact ⟨_, rfl⟩
  | block _ declares => simp [Line.not_isDeclaration_of_isBlank hb] at declares

theorem Chunks.replace {lines : List Text} {chunks chunks' : List Chunk} (h : Chunks lines chunks)
    (hr : List.Forall₂ Chunk.Replaces chunks chunks') :
    Chunks (chunks'.flatMap Chunk.lines) chunks' := by
  induction h generalizing chunks' with
  | nil =>
    cases hr
    exact .nil
  | macroClosed opens inside closes _ ih =>
    cases hr with
    | cons hc hr =>
      cases hc
      simpa [Chunk.lines] using Chunks.macroClosed opens inside closes (ih hr)
  | macroOpen opens inside =>
    cases hr with
    | cons hc hr =>
      cases hc
      cases hr
      simpa [Chunk.lines] using Chunks.macroOpen opens inside
  | @block line blank body rest chunks plain declares filled ends h ih =>
    cases hr with
    | cons hc hr =>
      obtain ⟨rest', hrest⟩ := h.cons_of_blank ends hr
      have htail := ih hr
      rw [hrest] at htail
      cases hc with
      | block hb =>
        cases hb with
        | intro declares' filled' =>
          rw [List.flatMap_cons, hrest]
          exact .block (Line.not_opensMacro declares') declares' filled' ends htail
  | outside plain silent _ ih =>
    cases hr with
    | cons hc hr =>
      cases hc
      exact .outside plain silent (ih hr)

/-! ### Segments of assembled parts -/

/-- What a segment says, the lines of a block aside. -/
def Segment.outline : Segment → List Text ⊕ Text
  | verbatim stretch => .inl stretch.lines
  | block name _ => .inr name

/-- The segment that holds lines outside any block, unless there are none. -/
def Segment.ofSkipped (start : Nat) (lines : List Text) : List Segment :=
  if lines.isEmpty then [] else [verbatim ⟨start, lines⟩]

theorem Segment.outline_ofSkipped (start start' : Nat) (lines : List Text) :
    (ofSkipped start lines).map outline = (ofSkipped start' lines).map outline := by
  cases lines <;> rfl

theorem Reads.ofSkipped_append {d : Dialect} {start : Nat} {lines : List Text} {parts : List Part}
    {segments : List Segment} {records : List Record} :
    Reads d (Part.ofSkipped start lines ++ parts) segments records ↔
      ∃ rest, segments = Segment.ofSkipped start lines ++ rest ∧ Reads d parts rest records := by
  cases lines with
  | nil => simp [Part.ofSkipped, Segment.ofSkipped]
  | cons line lines =>
    constructor
    · intro h
      cases h with
      | verbatim h => exact ⟨_, rfl, h⟩
    · rintro ⟨rest, rfl, h⟩
      exact .verbatim h

theorem Reads.exists_record {d : Dialect} {parts : List Part} {segments : List Segment}
    {records : List Record} (h : Reads d parts segments records) :
    ∀ block, .block block ∈ parts → ∃ r ∈ records, Block.read d block = .ok r := by
  induction h with
  | nil => simp
  | verbatim _ ih => simpa using ih
  | block hread _ ih =>
    intro block hb
    rcases List.mem_cons.1 hb with heq | hb
    · exact ⟨_, .head _, by rwa [Part.block.inj heq]⟩
    · obtain ⟨r, hr, hread⟩ := ih block hb
      exact ⟨r, .tail _ hr, hread⟩

theorem mem_of_mem_assemble {chunks : List Chunk} {start : Nat} {skipped : List Text}
    {block : Stretch} (h : .block block ∈ assemble start skipped chunks) :
    .block block.lines ∈ chunks := by
  have hskipped {start : Nat} {lines : List Text} : .block block ∉ Part.ofSkipped start lines := by
    cases lines <;> simp [Part.ofSkipped]
  induction chunks generalizing start skipped with
  | nil => exact absurd h hskipped
  | cons chunk chunks ih =>
    cases chunk with
    | outside lines => exact .tail _ (ih h)
    | block lines =>
      rw [assemble, List.mem_append, List.mem_cons] at h
      rcases h with h | heq | h
      · exact absurd h hskipped
      · rw [Part.block.inj heq]
        exact .head _
      · exact .tail _ (ih h)

theorem exists_mem_assemble {chunks : List Chunk} {lines : List Text} (h : .block lines ∈ chunks)
    (start : Nat) (skipped : List Text) :
    ∃ start', .block ⟨start', lines⟩ ∈ assemble start skipped chunks := by
  induction chunks generalizing start skipped with
  | nil => simp at h
  | cons chunk chunks ih =>
    rcases List.mem_cons.1 h with rfl | hrest
    · exact ⟨_, List.mem_append_right _ (.head _)⟩
    · cases chunk with
      | outside lines' => exact ih hrest start (skipped ++ lines')
      | block lines' =>
        obtain ⟨start', hmem⟩ := ih hrest (start + skipped.length + lines'.length) []
        exact ⟨start', List.mem_append_right _ (.tail _ hmem)⟩

namespace Model

/-- The chunk as it is written: the lines of a block are those of the variable that it declares. -/
def rewrite (m : Model) : Chunk → Chunk
  | .outside lines => .outside lines
  | .block lines =>
    match Block.read m.dialect ⟨0, lines⟩ with
    | .ok r => .block (m.writtenLines (.block r.name ⟨0, lines⟩))
    | .error _ => .block lines

/-- What is read from lines does not depend on where they stand. -/
theorem rewrite_block {m : Model} {start : Nat} {lines : List Text} {r : Record}
    (h : Block.read m.dialect ⟨start, lines⟩ = .ok r) :
    m.rewrite (.block lines) = .block (m.writtenLines (.block r.name ⟨start, lines⟩)) := by
  have hlines : Block.IsRead m.dialect lines r := Block.read_eq_ok_iff.1 h
  have hread : Block.read m.dialect ⟨0, lines⟩ = .ok r := Block.read_eq_ok_iff.2 hlines
  simp only [rewrite, hread]
  rfl

theorem writtenLines_block (m : Model) (name : Text) (stretch : Stretch) :
    m.writtenLines (.block name stretch) = stretch.lines ∨ ∃ r, m.graph.find? name = some r ∧
      name ∈ m.edited.items ∧
      m.writtenLines (.block name stretch) = Block.write m.dialect m.document.ending r := by
  simp only [writtenLines]
  split
  next r hr =>
    split
    next he => exact .inr ⟨r, hr, Catalog.contains_name.1 he, rfl⟩
    next => exact .inl rfl
  next => exact .inl rfl

theorem writtenLines_of_edited {m : Model} {name : Text} {r : Record}
    (hr : m.graph.find? name = some r) (he : name ∈ m.edited.items) (stretch : Stretch) :
    m.writtenLines (.block name stretch) = Block.write m.dialect m.document.ending r := by
  have hcontains : m.edited.contains name = true := Catalog.contains_name.2 he
  simp [writtenLines, hr, hcontains]

theorem flatMap_writtenLines_ofSkipped (m : Model) (start : Nat) (lines : List Text) :
    (Segment.ofSkipped start lines).flatMap m.writtenLines = lines := by
  cases lines <;> simp [Segment.ofSkipped, writtenLines]

/-- The segments are written as the chunks are. -/
theorem flatMap_writtenLines {m : Model} {chunks : List Chunk} {start : Nat} {skipped : List Text}
    {segments : List Segment} {records : List Record}
    (h : Reads m.dialect (assemble start skipped chunks) segments records) :
    segments.flatMap m.writtenLines = skipped ++ (chunks.map m.rewrite).flatMap Chunk.lines := by
  induction chunks generalizing start skipped segments records with
  | nil =>
    rw [assemble, ← List.append_nil (Part.ofSkipped start skipped), Reads.ofSkipped_append] at h
    obtain ⟨rest, rfl, hrest⟩ := h
    cases hrest
    simp [flatMap_writtenLines_ofSkipped]
  | cons chunk chunks ih =>
    cases chunk with
    | outside lines =>
      rw [ih h, List.map_cons, List.flatMap_cons, List.append_assoc]
      rfl
    | block lines =>
      rw [assemble, Reads.ofSkipped_append] at h
      obtain ⟨rest, rfl, h⟩ := h
      cases h with
      | block hread h =>
        rw [List.flatMap_append, flatMap_writtenLines_ofSkipped, List.flatMap_cons, ih h,
          List.map_cons, List.flatMap_cons, rewrite_block hread]
        rfl

/-- Every variable that has been edited can be written as a block. -/
def IsWritable (m : Model) : Prop :=
  ∀ {k r}, m.graph.find? k = some r → k ∈ m.edited.items → Block.IsWritable m.dialect r

/-- The block of every variable that has been edited declares it. -/
def IsReadable (m : Model) : Prop :=
  ∀ {k r}, m.graph.find? k = some r → k ∈ m.edited.items → ∀ start, ∃ s,
    Block.read m.dialect ⟨start, Block.write m.dialect m.document.ending r⟩ = .ok s ∧
      s.name = r.name

theorem replaces_rewrite {m : Model} (hm : m.IsWritable) {chunks : List Chunk}
    (hblocks : ∀ b, .block b ∈ chunks → Block.IsBlock b) :
    List.Forall₂ Chunk.Replaces chunks (chunks.map m.rewrite) := by
  rw [List.forall₂_map_right_iff, List.forall₂_same]
  intro chunk hc
  cases chunk with
  | outside lines => exact .outside lines
  | block lines =>
    have hb := hblocks lines hc
    cases hread : Block.read m.dialect ⟨0, lines⟩ with
    | error e =>
      simp only [rewrite, hread]
      exact .block hb
    | ok s =>
      rw [rewrite_block hread]
      refine .block ?_
      rcases m.writtenLines_block s.name ⟨0, lines⟩ with hw | ⟨r, hr, he, hw⟩
      · rwa [hw]
      · rw [hw]
        exact Block.isBlock_write (hm hr he) _

/-- Each record is one of the same name, and it is the same record where it is kept. -/
def KeepsNames (kept : Text → Prop) (records records' : List Record) : Prop :=
  List.Forall₂ (fun r s => s.name = r.name ∧ (kept r.name → s = r)) records records'

theorem KeepsNames.map_name {kept : Text → Prop} {records records' : List Record}
    (h : KeepsNames kept records records') :
    records'.map Record.name = records.map Record.name := by
  induction h with
  | nil => rfl
  | cons hrs _ ih => rw [List.map_cons, List.map_cons, ih, hrs.1]

theorem KeepsNames.find? {kept : Text → Prop} {records records' : List Record}
    (h : KeepsNames kept records records') {name : Text} (hk : kept name) :
    (records'.find? fun r => r.name = name) = records.find? fun r => r.name = name := by
  induction h with
  | nil => rfl
  | @cons r s _ _ hrs _ ih =>
    obtain ⟨hname, hsame⟩ := hrs
    rw [List.find?_cons, List.find?_cons, ih, hname]
    by_cases hr : r.name = name
    · simp [hr, hsame (hr.symm ▸ hk)]
    · simp [hr]

section Readable

variable {m : Model} (hm : m.IsReadable)
include hm

/-- The lines of a block, written anew or not, declare the name of that block. -/
theorem read_writtenLines {stretch : Stretch} {r : Record}
    (hread : Block.read m.dialect stretch = .ok r) (start : Nat) :
    ∃ s, Block.read m.dialect ⟨start, m.writtenLines (.block r.name stretch)⟩ = .ok s ∧
      s.name = r.name ∧ (r.name ∉ m.edited.items → s = r) := by
  rcases m.writtenLines_block r.name stretch with hw | ⟨current, hfind, hedited, hw⟩
  · have hlines := Block.read_eq_ok_iff.1 hread
    rw [hw]
    exact ⟨r, Block.read_eq_ok_iff.2 hlines, rfl, fun _ => rfl⟩
  · obtain ⟨s, hs, hname⟩ := hm hfind hedited start
    rw [hw]
    exact ⟨s, hs, hname.trans (Catalog.key_of_find? hfind), fun hn => absurd hedited hn⟩

/-- The parts of a document with the blocks written anew. -/
theorem reads_rewritten {chunks : List Chunk} {start : Nat} {skipped : List Text}
    {segments : List Segment} {records : List Record}
    (h : Reads m.dialect (assemble start skipped chunks) segments records) (start' : Nat) :
    ∃ segments' records',
      Reads m.dialect (assemble start' skipped (chunks.map m.rewrite)) segments' records' ∧
      segments'.map Segment.outline = segments.map Segment.outline ∧
      KeepsNames (fun name => name ∉ m.edited.items) records records' := by
  induction chunks generalizing start skipped segments records start' with
  | nil =>
    rw [assemble, ← List.append_nil (Part.ofSkipped start skipped), Reads.ofSkipped_append] at h
    obtain ⟨rest, rfl, hrest⟩ := h
    cases hrest
    refine ⟨Segment.ofSkipped start' skipped ++ [], [], ?_, ?_, .nil⟩
    · rw [List.map_nil, assemble, ← List.append_nil (Part.ofSkipped start' skipped),
        Reads.ofSkipped_append]
      exact ⟨[], rfl, .nil⟩
    · simp [Segment.outline_ofSkipped start' start]
  | cons chunk chunks ih =>
    cases chunk with
    | outside lines => exact ih h start'
    | block lines =>
      rw [assemble, Reads.ofSkipped_append] at h
      obtain ⟨rest, rfl, h⟩ := h
      cases h with
      | @block _ r _ rest records hread h =>
        obtain ⟨s, hs, hname, hsame⟩ := read_writtenLines hm hread (start' + skipped.length)
        rw [List.map_cons, rewrite_block hread]
        generalize m.writtenLines (.block r.name ⟨start + skipped.length, lines⟩) = written at hs
        obtain ⟨segments', records', hreads, houtline, hrecords⟩ :=
          ih h (start' + skipped.length + written.length)
        refine ⟨Segment.ofSkipped start' skipped ++
          .block s.name ⟨start' + skipped.length, written⟩ :: segments', s :: records', ?_, ?_,
          .cons ⟨hname, hsame⟩ hrecords⟩
        · exact Reads.ofSkipped_append.2 ⟨_, rfl, .block hs hreads⟩
        · rw [List.map_append, List.map_append, List.map_cons, List.map_cons, houtline,
            Segment.outline_ofSkipped start' start]
          simp only [Segment.outline, hname]

end Readable

end Model

end StockFlow
