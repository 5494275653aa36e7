import StockFlow.Proofs.Rewriting

/-! An edited model written and loaded again. Whatever the edits hold, the text has the header, the
lines between blocks and the trailing section of the source, its blocks declare the same variables in
the same order, and a variable that no edit has changed is what it was. -/
namespace StockFlow

/-! ### Lines after terminated lines -/

theorem Line.split_suffix {t : Text} {before after : List Text} (h : split t = before ++ after)
    (ha : after ≠ []) : (∀ l ∈ before, IsTerminated l) ∧ split after.flatten = after := by
  have hbefore : ∀ l ∈ before, IsTerminated l := by
    intro l hl
    obtain ⟨init, rest, rfl⟩ := List.append_of_mem hl
    have hsplit : split t = init ++ l :: (rest ++ after) := by simpa using h
    exact isTerminated_of_split hsplit (by simp [ha])
  refine ⟨hbefore, ?_⟩
  have ht : before.flatten ++ after.flatten = t := by
    rw [← List.flatten_append, ← h, split_flatten]
  rw [← ht, split_append hbefore] at h
  exact List.append_cancel_left h

namespace Sections

variable {d : Dialect} {source : Text} {sections : Sections}

theorem isInner_of_ofLines (h : ofLines d (Line.split source) = .ok sections) :
    ∀ l ∈ sections.declarations.lines, IsInner d l := by
  obtain ⟨header, declarations, line, trailing, hlines, hinside, -, rfl⟩ := ofLines_eq_ok_iff.1 h
  obtain ⟨hterminated, -⟩ :=
    Line.split_suffix (show _ = (header :: declarations) ++ line :: trailing from hlines) (by simp)
  exact fun l hl => ⟨hterminated l (.tail _ hl), hinside l hl⟩

/-- Other inner lines can stand between the header and the trailing section. -/
theorem ofLines_replaced (h : ofLines d (Line.split source) = .ok sections) {lines : List Text}
    (hinner : ∀ l ∈ lines, IsInner d l) :
    ofLines d (Line.split (sections.header ++ lines.flatten ++ sections.trailing.lines.flatten)) =
      .ok ⟨sections.header, ⟨1, lines⟩, ⟨1 + lines.length, sections.trailing.lines⟩⟩ := by
  obtain ⟨header, declarations, line, trailing, hlines, -, hboundary, rfl⟩ := ofLines_eq_ok_iff.1 h
  obtain ⟨hterminated, htrailing⟩ :=
    Line.split_suffix (show _ = (header :: declarations) ++ line :: trailing from hlines) (by simp)
  have hall : ∀ l ∈ header :: lines, Line.IsTerminated l :=
    List.forall_mem_cons.2 ⟨hterminated header (.head _), fun l hl => (hinner l hl).1⟩
  have hsplit := Line.split_append hall (line :: trailing).flatten
  rw [htrailing, List.flatten_cons] at hsplit
  exact ofLines_eq_ok_iff.2
    ⟨header, lines, line, trailing, hsplit, fun l hl => (hinner l hl).2, hboundary, rfl⟩

end Sections

namespace Model

/-! ### Variables that no edit has changed -/

/-- What is authored of the variable has been the same after each of the edits. -/
def Unchanged (m : Model) (steps : List (Text × Edit)) (name : Text) : Prop :=
  ∀ earlier, earlier <+: steps →
    ((m.after earlier).graph.find? name).map Record.authored =
      (m.graph.find? name).map Record.authored

theorem authored_after {m : Model} {steps : List (Text × Edit)} {name : Text}
    (h : ∀ s ∈ steps, s.1 ≠ name) : ((m.after steps).graph.find? name).map Record.authored =
      (m.graph.find? name).map Record.authored := by
  induction steps generalizing m with
  | nil => rfl
  | cons s steps ih =>
    obtain ⟨hs, hsteps⟩ := List.forall_mem_cons.1 h
    refine (ih (m := m.step s) hsteps).trans ?_
    unfold step
    cases he : m.edit s.1 s.2 with
    | error e => rfl
    | ok m' =>
      rcases edit_cases he with rfl | ⟨old, r, graph, hold, happly, -, hgraph, rfl⟩
      · rfl
      · exact (authored_redefined hold happly hgraph name).trans (if_neg (Ne.symm hs))

theorem unchanged_of_forall_ne {m : Model} {steps : List (Text × Edit)} {name : Text}
    (h : ∀ s ∈ steps, s.1 ≠ name) : m.Unchanged steps name :=
  fun _ he => authored_after fun s hs => h s (he.subset hs)

/-- An edit marks the variable whose authored record it changes. -/
theorem mem_edited_step {m : Model} {s : Text × Edit} {name : Text} :
    name ∈ (m.step s).edited.items ↔ name ∈ m.edited.items ∨
      ((m.step s).graph.find? name).map Record.authored ≠
        (m.graph.find? name).map Record.authored := by
  obtain ⟨changed, e⟩ := s
  unfold step
  cases he : m.edit changed e with
  | error _ => simp [Except.toOption]
  | ok m' =>
    rcases edit_cases he with rfl | ⟨old, r, graph, hold, happly, hne, hgraph, rfl⟩
    · simp [Except.toOption]
    · simp only [Except.toOption, Option.getD_some, Catalog.mem_insert,
        authored_redefined hold happly hgraph]
      by_cases hname : name = changed
      · subst hname
        simp [hold, hne]
      · simp [hname]

theorem unchanged_append_singleton {m : Model} {steps : List (Text × Edit)} {s : Text × Edit}
    {name : Text} : m.Unchanged (steps ++ [s]) name ↔ m.Unchanged steps name ∧
      ((m.after (steps ++ [s])).graph.find? name).map Record.authored =
        (m.graph.find? name).map Record.authored := by
  simp only [Unchanged, List.prefix_concat_iff, or_imp, forall_and, forall_eq]
  exact and_comm

/-- The variables that a run marks are those that it has changed at some point. -/
theorem mem_edited_after {m : Model} {steps : List (Text × Edit)} {name : Text} :
    name ∈ (m.after steps).edited.items ↔
      name ∈ m.edited.items ∨ ¬ m.Unchanged steps name := by
  induction steps using List.reverseRecOn with
  | nil =>
    have hnil : m.Unchanged [] name := fun earlier he => by rw [List.prefix_nil.1 he]; rfl
    simp [hnil, after]
  | append_singleton steps s ih =>
    have hafter : m.after (steps ++ [s]) = (m.after steps).step s := after_append m steps [s]
    rw [unchanged_append_singleton, hafter, mem_edited_step, ih, or_assoc, not_and_or]
    by_cases hsteps : m.Unchanged steps name
    · rw [hsteps steps List.prefix_rfl]
    · simp [hsteps]

/-! ### Writable models -/

section Loaded

variable {d : Dialect} {source : Text} {m : Model}

/-- A variable is read from the lines of a block, each of which is a line of the source. -/
theorem exists_block_of_load (h : load d source = .ok m) {k : Text} {r : Record}
    (hr : m.graph.find? k = some r) : ∃ block s, Block.read d block = .ok s ∧
      s.authored = r.authored ∧ Block.IsBlock block.lines ∧
      ∀ l ∈ block.lines, l ∈ Line.split source := by
  obtain ⟨sections, parts, segments, records, hsections, hparts, hreads, -, rfl⟩ :=
    load_eq_ok_iff.1 h
  obtain ⟨chunks, hchunks, rfl⟩ := Part.exists_chunks hparts
  obtain ⟨s, hs, heq⟩ := Graph.exists_of_rebuilt hr
  obtain ⟨block, hb, hread⟩ := hreads.exists_block s hs
  have hchunk := mem_of_mem_assemble hb
  refine ⟨block, s, hread, heq, hchunks.isBlock _ hchunk, fun l hl => ?_⟩
  obtain ⟨header, declarations, line, trailing, hlines, -, -, rfl⟩ :=
    Sections.ofLines_eq_ok_iff.1 hsections
  have hall : chunks.flatMap Chunk.lines = declarations := hchunks.lines_eq
  have hmem : l ∈ declarations := by
    rw [← hall]
    exact List.mem_flatMap.2 ⟨_, hchunk, hl⟩
  rw [hlines]
  simp [hmem]

theorem isOneLine_after (h : load d source = .ok m) (steps : List (Text × Edit)) :
    ∀ {k r}, (m.after steps).graph.find? k = some r → IsOneLine r := by
  refine after_induction (P := fun m => ∀ {k r}, m.graph.find? k = some r → IsOneLine r)
    (fun {k r} hr => ?_) (fun {m m' name e} hm he k r hr => ?_) steps
  · obtain ⟨block, s, hread, heq, -, hlines⟩ := exists_block_of_load h hr
    refine (Block.isOneLine_of_read hread fun l hl => ?_).congr heq.symm
    exact Line.not_mem_dropLast_of_split (hlines l hl)
  · exact forall_records_edit he (fun h hs => h.congr hs) isOneLine_of_apply hm hr

theorem isDeclaration_of_load (h : load d source = .ok m) {k : Text}
    (hk : (m.graph.find? k).isSome = true) : Line.isDeclaration k = true := by
  obtain ⟨r, hr⟩ := Option.isSome_iff_exists.1 hk
  obtain ⟨⟨start, lines⟩, s, hread, heq, hb, -⟩ := exists_block_of_load h hr
  have hname := Record.name_eq_of_authored heq
  have hrk : r.name = k := Catalog.key_of_find? hr
  rw [← hrk, ← hname]
  cases hb with
  | intro declares => exact Block.isDeclaration_of_read hread declares

theorem isDeclaration_after (h : load d source = .ok m) (steps : List (Text × Edit)) {k : Text}
    {r : Record} (hr : (m.after steps).graph.find? k = some r) :
    Line.isDeclaration r.name = true := by
  have hname : r.name = k := Catalog.key_of_find? hr
  refine hname ▸ isDeclaration_of_load h ?_
  rw [← ((evolved_of_load h).after steps).names, hr]
  rfl

/-- The blocks of edited variables can stand in the document if none of them begins with a boundary
line. -/
theorem isWritable_after (h : load d source = .ok m) (steps : List (Text × Edit))
    (hinside : ∀ {k r}, (m.after steps).graph.find? k = some r →
      k ∈ (m.after steps).edited.items → d.isBoundaryLine (r.name ++ r.operator.symbol) = false) :
    (m.after steps).IsWritable := by
  have hm := (evolved_of_load h).after steps
  intro k r hr he
  refine ⟨hm.authored hr, isOneLine_after h steps hr, isDeclaration_after h steps hr, ?_⟩
  rw [hm.dialect, dialect_of_load h]
  exact hinside hr he

theorem isReadable_after (h : load d source = .ok m) (steps : List (Text × Edit))
    (hlists : ∀ {k r}, (m.after steps).graph.find? k = some r → k ∈ (m.after steps).edited.items →
      r.equation.head? ≠ some '~' → Block.ListsParents d r) : (m.after steps).IsReadable := by
  have hm := (evolved_of_load h).after steps
  intro k r hr he start
  refine Block.exists_read_write (hm.authored hr) _ ?_ start
  rw [hm.dialect, dialect_of_load h]
  exact hlists hr he

/-! ### The text of an edited model -/

theorem isInner_writtenLines (hm : m.IsWritable) {s : Segment}
    (hs : ∀ l ∈ s.stretch.lines, IsInner m.dialect l) :
    ∀ l ∈ m.writtenLines s, IsInner m.dialect l := by
  cases s with
  | verbatim stretch => exact hs
  | block name stretch =>
    rcases m.writtenLines_block name stretch with hw | ⟨r, hr, he, hw⟩
    · rwa [hw]
    · rw [hw]
      exact Block.isInner_write (hm hr he) _

/-- The sections and the parts of the text are those of the source, with the blocks of edited
variables written anew. -/
theorem parts_of_text {current : Model} (h : load d source = .ok m) (hm : Evolved m current)
    (hw : current.IsWritable) : ∃ sections chunks segments records,
      Reads d (assemble 1 [] chunks) segments records ∧ (records.map Record.name).Nodup ∧
      m = {
        dialect := d
        document := ⟨sections, segments, Newline.ofText source⟩
        graph := (Graph.ofRecords records).classified d
        edited := Catalog.empty } ∧
      ∃ lines, Sections.ofLines d (Line.split current.text) =
          .ok ⟨sections.header, ⟨1, lines⟩, ⟨1 + lines.length, sections.trailing.lines⟩⟩ ∧
        Part.extract ⟨1, lines⟩ = .ok (assemble 1 [] (chunks.map current.rewrite)) := by
  have hdialect : current.dialect = d := hm.dialect.trans (dialect_of_load h)
  obtain ⟨sections, parts, segments, records, hsections, hparts, hreads, hnodup, rfl⟩ :=
    load_eq_ok_iff.1 h
  obtain ⟨chunks, hchunks, rfl⟩ := Part.exists_chunks hparts
  have hstart : sections.declarations.start = 1 := by
    obtain ⟨header, declarations, line, trailing, -, -, -, rfl⟩ :=
      Sections.ofLines_eq_ok_iff.1 hsections
    rfl
  rw [hstart] at hreads
  subst hdialect
  have hwritten := flatMap_writtenLines hreads
  rw [List.nil_append] at hwritten
  have hinner : ∀ l ∈ (chunks.map current.rewrite).flatMap Chunk.lines,
      IsInner current.dialect l := by
    rw [← hwritten]
    intro l hl
    obtain ⟨s, hs, hl⟩ := List.mem_flatMap.1 hl
    refine isInner_writtenLines hw (fun l hl => ?_) l hl
    have hmem : l ∈ segments.flatMap fun s => s.stretch.lines := List.mem_flatMap.2 ⟨s, hs, hl⟩
    rw [lines_of_reads hparts (hstart ▸ hreads)] at hmem
    exact Sections.isInner_of_ofLines hsections l hmem
  have htext : current.text = sections.header ++
      ((chunks.map current.rewrite).flatMap Chunk.lines).flatten ++
      sections.trailing.lines.flatten := by
    rw [text, hm.document, hwritten]
  have hsections' := Sections.ofLines_replaced hsections hinner
  rw [← htext] at hsections'
  exact ⟨sections, chunks, segments, records, hreads, hnodup, rfl, _, hsections',
    Part.extractFrom_of_chunks (hchunks.replace (replaces_rewrite hw hchunks.isBlock)) 1 []⟩

/-- A model whose variables can be written and read is written as a text that can be loaded. -/
theorem exists_load_text {current : Model} (h : load d source = .ok m) (hm : Evolved m current)
    (hw : current.IsWritable) (hr : current.IsReadable) :
    ∃ reloaded, load d current.text = .ok reloaded ∧
      reloaded.document.sections.header = m.document.sections.header ∧
      reloaded.document.sections.trailing.lines = m.document.sections.trailing.lines ∧
      reloaded.document.segments.map Segment.outline = m.document.segments.map Segment.outline ∧
      reloaded.document.names = m.document.names ∧
      ∀ name, name ∉ current.edited.items →
        (reloaded.graph.find? name).map Record.authored =
          (m.graph.find? name).map Record.authored := by
  have hdialect : current.dialect = d := hm.dialect.trans (dialect_of_load h)
  obtain ⟨sections, chunks, segments, records, hreads, hnodup, rfl, lines, hsections, hparts⟩ :=
    parts_of_text h hm hw
  subst hdialect
  obtain ⟨segments', records', hreads', houtline, hrecords⟩ := reads_rewritten hr hreads 1
  have hnames := hrecords.map_name
  refine ⟨_, load_eq_ok_iff.2 ⟨_, _, segments', records', hsections, hparts, hreads', ?_, rfl⟩, rfl,
    rfl, houtline, ?_, fun name hname => ?_⟩
  · rw [hnames]
    exact hnodup
  · rw [Document.names, Document.names, hreads'.names_eq, hnames, ← hreads.names_eq]
  · rw [Graph.authored_rebuilt, Graph.authored_rebuilt, hrecords.find? hname]

/-- Whatever texts the edits bring, only the lines of blocks that they change are written anew, and
each of these is the block of what its variable has become. The text can be loaded again: the header,
the lines between blocks and the trailing section are the same, the blocks declare the same names in
the same order, and what no edit has changed is defined as it was. -/
theorem text_after_loads (h : load .standard source = .ok m) (steps : List (Text × Edit)) :
    source = m.document.sections.header ++
      (m.document.segments.flatMap fun s => s.stretch.lines).flatten ++
      m.document.sections.trailing.lines.flatten ∧
    (m.after steps).text = m.document.sections.header ++
      (m.document.segments.flatMap (m.after steps).writtenLines).flatten ++
      m.document.sections.trailing.lines.flatten ∧
    (∀ s ∈ m.document.segments, (∀ name, s.name? = some name → m.Unchanged steps name) →
      (m.after steps).writtenLines s = s.stretch.lines) ∧
    (∀ name stretch, .block name stretch ∈ m.document.segments → ¬ m.Unchanged steps name →
      ∃ r, (m.after steps).graph.find? name = some r ∧
        (m.after steps).writtenLines (.block name stretch) =
          Block.write .standard m.document.ending r) ∧
    ∃ reloaded, load .standard (m.after steps).text = .ok reloaded ∧
      reloaded.document.sections.header = m.document.sections.header ∧
      reloaded.document.sections.trailing.lines = m.document.sections.trailing.lines ∧
      reloaded.document.segments.map Segment.outline = m.document.segments.map Segment.outline ∧
      reloaded.document.names = m.document.names ∧
      ∀ name, m.Unchanged steps name → (reloaded.graph.find? name).map Record.authored =
        (m.graph.find? name).map Record.authored := by
  have hm := (evolved_of_load h).after steps
  have hedited {name : Text} :
      name ∈ (m.after steps).edited.items ↔ ¬ m.Unchanged steps name := by
    simp [mem_edited_after, edited_of_load h]
  have hwritable : (m.after steps).IsWritable := isWritable_after h steps fun hr _ =>
    Block.inside_of_isDeclaration (by decide) (isDeclaration_after h steps hr)
  have hreadable : (m.after steps).IsReadable := by
    refine isReadable_after h steps fun hr _ _ => ?_
    have hauthored := hm.authored hr
    rw [hm.dialect, dialect_of_load h] at hauthored
    exact Block.listsParents_of_isAuthored hauthored (.inr (.inr isName_standard))
  obtain ⟨reloaded, hload, hheader, htrailing, houtline, hnames, hsame⟩ :=
    exists_load_text h hm hwritable hreadable
  refine ⟨(source_of_load h).symm, ?_, fun s _ hs => ?_, fun name stretch hs hchanged => ?_,
    reloaded, hload, hheader, htrailing, houtline, hnames, fun name hname => hsame name ?_⟩
  · rw [text, hm.document]
  · exact writtenLines_of_not_edited fun name hname he => hedited.1 he (hs name hname)
  · have hdeclared := (mem_names_of_load h name).1 (List.mem_filterMap.2 ⟨_, hs, rfl⟩)
    rw [← hm.names] at hdeclared
    obtain ⟨r, hr⟩ := Option.isSome_iff_exists.1 hdeclared
    refine ⟨r, hr, ?_⟩
    rw [writtenLines_of_edited hr (hedited.2 hchanged), hm.document, hm.dialect, dialect_of_load h]
  · exact fun he => hedited.1 he hname

end Loaded

/-- An edit whose texts look like the end of the block, of the variables and of a quoted name. -/
def hostileEdits : List (Text × Edit) :=
  [("inflow".toList, ⟨some "level / 2 |\n\n***\nx = 1\n\t~\t\"".toList, some "\n\n:MACRO: m\n".toList,
    some "~ |\n\nlevel = 0\n\t~\n\t~\t|\n\n\\".toList⟩),
    ("inflow".toList, ⟨some "~ \"level".toList, none, some "***".toList⟩)]

/-- The block of the inflow. -/
def inflowBlock : Stretch :=
  ⟨5, ["inflow = 1\n", "\t~\tm3/s\n", "\t~\t|\n"].map String.toList⟩

/-- What stands in its place after the edits. -/
def hostileBlock : List Text :=
  ["inflow=\n", "\t~ \"level\n", "\t~\t:MACRO: m\n", "\t~\t***\n", "\t|\n"].map String.toList

theorem tank_text_after_loads : ∃ m, load .standard tank = .ok m ∧
    (∃ r, (m.after hostileEdits).graph.find? "inflow".toList = some r ∧
      (m.after hostileEdits).writtenLines (.block "inflow".toList inflowBlock) =
        Block.write .standard m.document.ending r ∧
      Block.write .standard m.document.ending r = hostileBlock) ∧
    ∃ reloaded, load .standard (m.after hostileEdits).text = .ok reloaded ∧
      reloaded.document.names = m.document.names ∧
      (reloaded.graph.find? "level".toList).map Record.authored =
        (m.graph.find? "level".toList).map Record.authored := by
  have hfacts : (load .standard tank).toOption.map (fun m => (m.document.segments[2]?,
      (m.after hostileEdits).edited.items,
      (m.after hostileEdits).writtenLines (.block "inflow".toList inflowBlock))) =
        some (some (.block "inflow".toList inflowBlock), ["inflow".toList], hostileBlock) := by
    decide +kernel
  obtain ⟨m, hm, hfacts⟩ := Option.map_eq_some_iff.1 hfacts
  have hm := eq_ok_of_toOption hm
  simp only [Prod.mk.injEq] at hfacts
  obtain ⟨hblock, hedited, hlines⟩ := hfacts
  have hchanged : ¬ m.Unchanged hostileEdits "inflow".toList := by
    have hmem : "inflow".toList ∈ (m.after hostileEdits).edited.items := by simp [hedited]
    refine (mem_edited_after.1 hmem).resolve_left ?_
    simp [edited_of_load hm, Catalog.empty]
  have hsame : m.Unchanged hostileEdits "level".toList := unchanged_of_forall_ne (by decide)
  obtain ⟨-, -, -, hwritten, reloaded, hload, -, -, -, hnames, hauthored⟩ :=
    text_after_loads hm hostileEdits
  obtain ⟨r, hr, hwrite⟩ := hwritten _ _ (List.mem_of_getElem? hblock) hchanged
  exact ⟨m, hm, ⟨r, hr, hwrite, hwrite.symm.trans hlines⟩, reloaded, hload, hnames,
    hauthored _ hsame⟩

end Model

end StockFlow
