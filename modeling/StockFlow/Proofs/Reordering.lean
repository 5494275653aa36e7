import Mathlib.Data.List.Forall2
import Mathlib.Data.List.Perm.Basic
import StockFlow.Proofs.Contents
import StockFlow.Proofs.Refusals

/-! Blocks in another order and among other lines. What a document says of its variables is what its
blocks hold. Two documents that hold the same blocks can both be loaded or neither, and have the same
graph, whatever their headers, headings, macros and trailing sections are, in whatever order the
blocks stand and however their lines end. -/
namespace StockFlow

/-! ### Graphs of the same records -/

theorem find?_name_eq_some_iff {records : List Record} (hnodup : (records.map Record.name).Nodup)
    {k : Text} {r : Record} :
    (records.find? fun s => s.name = k) = some r ↔ r ∈ records ∧ r.name = k := by
  constructor
  · intro h
    exact ⟨List.mem_of_find?_eq_some h, by simpa using List.find?_some h⟩
  · rintro ⟨hr, rfl⟩
    exact Model.find?_name_of_mem hnodup hr

theorem find?_name_perm {records records' : List Record} (h : records.Perm records')
    (hnodup : (records.map Record.name).Nodup) (k : Text) :
    (records.find? fun r => r.name = k) = records'.find? fun r => r.name = k := by
  have hnodup' : (records'.map Record.name).Nodup := (h.map Record.name).nodup_iff.1 hnodup
  ext r
  rw [find?_name_eq_some_iff hnodup, find?_name_eq_some_iff hnodup', h.mem_iff]

/-- Records with different names give the same graph in any order. -/
theorem Graph.ofRecords_perm {records records' : List Record} (h : records.Perm records')
    (hnodup : (records.map Record.name).Nodup) : ofRecords records = ofRecords records' := by
  refine (linked_ofRecords records).ext (linked_ofRecords records') fun k => ?_
  rw [childless_ofRecords, childless_ofRecords, find?_name_perm h hnodup]

/-! ### Contents of blocks -/

/-- What the blocks of a document hold: their lines without endings. -/
def Part.contents (parts : List Part) : List (List Text) :=
  (parts.filterMap block?).map fun block => block.lines.map Line.withoutEnding

theorem Block.isRead_withoutEnding {d : Dialect} {lines : List Text} {r : Record} :
    IsRead d (lines.map Line.withoutEnding) r ↔ IsRead d lines r := by
  let block : Stretch := ⟨0, lines⟩
  have hread : read d (block.map Line.withoutEnding) = read d block :=
    keepsContents_withoutEnding.read d block
  calc
    IsRead d (block.map Line.withoutEnding).lines r
      ↔ read d (block.map Line.withoutEnding) = .ok r := read_eq_ok_iff.symm
    _ ↔ read d block = .ok r := by rw [hread]
    _ ↔ IsRead d block.lines r := read_eq_ok_iff

/-- Parts are read as records just when the contents of their blocks are. -/
theorem exists_reads_iff {d : Dialect} {parts : List Part} {records : List Record} :
    (∃ segments, Reads d parts segments records) ↔
      List.Forall₂ (Block.IsRead d) (Part.contents parts) records := by
  constructor
  · rintro ⟨segments, h⟩
    rw [Part.contents, List.forall₂_map_left_iff]
    exact h.forall₂_blocks.imp fun _ _ hr =>
      Block.isRead_withoutEnding.2 (Block.read_eq_ok_iff.1 hr)
  · intro h
    induction parts generalizing records with
    | nil =>
      cases h
      exact ⟨[], .nil⟩
    | cons part parts ih =>
      cases part with
      | verbatim stretch =>
        obtain ⟨segments, hreads⟩ := ih h
        exact ⟨_, .verbatim hreads⟩
      | block stretch =>
        cases h with
        | cons hr h =>
          obtain ⟨segments, hreads⟩ := ih h
          exact ⟨_, .block (Block.read_eq_ok_iff.2 (Block.isRead_withoutEnding.1 hr)) hreads⟩

namespace Model

variable {d : Dialect} {source source' : Text} {sections sections' : Sections}
  {parts parts' : List Part}

theorem exists_load_reordered (h : (Part.contents parts').Perm (Part.contents parts))
    (hsections : Sections.ofLines d (Line.split source) = .ok sections)
    (hparts : Part.extract sections.declarations = .ok parts)
    (hsections' : Sections.ofLines d (Line.split source') = .ok sections')
    (hparts' : Part.extract sections'.declarations = .ok parts') {m : Model}
    (hm : load d source = .ok m) : ∃ m', load d source' = .ok m' ∧ m'.graph = m.graph := by
  obtain ⟨_, _, segments, records, hs, hp, hreads, hnodup, rfl⟩ := load_eq_ok_iff.1 hm
  obtain rfl := Except.ok.inj (hsections.symm.trans hs)
  obtain rfl := Except.ok.inj (hparts.symm.trans hp)
  obtain ⟨records', hrecords', hperm⟩ :=
    List.perm_comp_forall₂ h (exists_reads_iff.1 ⟨segments, hreads⟩)
  obtain ⟨segments', hreads'⟩ := exists_reads_iff.2 hrecords'
  have hnodup' : (records'.map Record.name).Nodup :=
    (hperm.map Record.name).nodup_iff.2 hnodup
  refine ⟨_, load_eq_ok_iff.2 ⟨sections', parts', segments', records', hsections', hparts', hreads',
    hnodup', rfl⟩, ?_⟩
  change (Graph.ofRecords records').classified d = (Graph.ofRecords records).classified d
  rw [Graph.ofRecords_perm hperm hnodup']

/-- When two texts have their sections and parts, and their blocks hold the same but for the order
and the endings of lines, either both can be loaded or neither, and the graphs are the same. -/
theorem load_reordered (hsections : Sections.ofLines d (Line.split source) = .ok sections)
    (hparts : Part.extract sections.declarations = .ok parts)
    (hsections' : Sections.ofLines d (Line.split source') = .ok sections')
    (hparts' : Part.extract sections'.declarations = .ok parts')
    (h : (Part.contents parts).Perm (Part.contents parts')) :
    ((∃ m, load d source = .ok m) ↔ ∃ m', load d source' = .ok m') ∧
      ∀ m m', load d source = .ok m → load d source' = .ok m' → m.graph = m'.graph := by
  have hforth {m : Model} (hm : load d source = .ok m) :=
    exists_load_reordered h.symm hsections hparts hsections' hparts' hm
  have hback {m' : Model} (hm' : load d source' = .ok m') :=
    exists_load_reordered h hsections' hparts' hsections hparts hm'
  refine ⟨⟨?_, ?_⟩, fun m m' hm hm' => ?_⟩
  · rintro ⟨m, hm⟩
    obtain ⟨m', hm', -⟩ := hforth hm
    exact ⟨m', hm'⟩
  · rintro ⟨m', hm'⟩
    obtain ⟨m, hm, -⟩ := hback hm'
    exact ⟨m, hm⟩
  · obtain ⟨m'', hm'', hgraph⟩ := hforth hm
    obtain rfl := Except.ok.inj (hm'.symm.trans hm'')
    exact hgraph.symm

/-- The variables of the tank in the other order and with other endings of lines: under another
header, with a heading before them, a macro that declares one of them between them, and another
trailing section. -/
def tankReordered : Text :=
  ("tank\r\n.Flows\r\ninflow = 1\r\n\t~\tm3/s\r\n\t~\t|\r\n\r\n" ++
    ":MACRO: m\r\nlevel = 0\r\n\r\n:END OF MACRO:\r\n" ++
    "level = INTEG(inflow, 10)\r\n\t~\tm3\r\n\t~\t|\r\n\r\n*\r\nlevel = 1\r\n").toList

theorem tank_reordered : ∃ sections sections' parts parts',
    Sections.ofLines .standard (Line.split tank) = .ok sections ∧
      Part.extract sections.declarations = .ok parts ∧
      Sections.ofLines .standard (Line.split tankReordered) = .ok sections' ∧
      Part.extract sections'.declarations = .ok parts' ∧
      (Part.contents parts).Perm (Part.contents parts') ∧
      ∃ m m', load .standard tank = .ok m ∧ load .standard tankReordered = .ok m' ∧
        m.graph = m'.graph := by
  let level : List Text := ["level = INTEG(inflow, 10)".toList, "\t~\tm3".toList, "\t~\t|".toList]
  let inflow : List Text := ["inflow = 1".toList, "\t~\tm3/s".toList, "\t~\t|".toList]
  let contents? (source : Text) : Option (List (List Text)) :=
    ((Sections.ofLines .standard (Line.split source)).toOption.bind fun sections =>
      (Part.extract sections.declarations).toOption).map Part.contents
  have hcontents : contents? tank = some [level, inflow] ∧
      contents? tankReordered = some [inflow, level] := by
    decide +kernel
  have hparts {source : Text} {contents : List (List Text)} (h : contents? source = some contents) :
      ∃ sections parts, Sections.ofLines .standard (Line.split source) = .ok sections ∧
        Part.extract sections.declarations = .ok parts ∧ Part.contents parts = contents := by
    obtain ⟨parts, hparts, hcontents⟩ := Option.map_eq_some_iff.1 h
    obtain ⟨sections, hsections, hparts⟩ := Option.bind_eq_some_iff.1 hparts
    exact ⟨sections, parts, eq_ok_of_toOption hsections, eq_ok_of_toOption hparts, hcontents⟩
  obtain ⟨sections, parts, hs, hp, hc⟩ := hparts hcontents.1
  obtain ⟨sections', parts', hs', hp', hc'⟩ := hparts hcontents.2
  have hperm : (Part.contents parts).Perm (Part.contents parts') := by
    rw [hc, hc']
    exact .swap _ _ _
  obtain ⟨hloads, hgraph⟩ := load_reordered hs hp hs' hp' hperm
  obtain ⟨m, hm⟩ := tank_loads
  obtain ⟨m', hm'⟩ := hloads.1 ⟨m, hm⟩
  exact ⟨sections, sections', parts, parts', hs, hp, hs', hp', hperm, m, m', hm, hm',
    hgraph m m' hm hm'⟩

end Model

end StockFlow
