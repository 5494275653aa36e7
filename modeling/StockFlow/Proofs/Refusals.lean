import StockFlow.Proofs.Incremental

/-! What a load reports. Each block is judged by itself and by the blocks before it: it cannot be
read, or its name is declared before. A load whose document has its parts fails just when there is
such a block; it then reports every one of them in order, and otherwise has one variable for each
block. -/
namespace StockFlow

namespace Block

/-- The block can be read and declares the name. -/
def declares (d : Dialect) (name : Text) (block : Stretch) : Bool :=
  match read d block with
  | .ok r => r.name == name
  | .error _ => false

theorem declares_iff {d : Dialect} {name : Text} {block : Stretch} :
    declares d name block = true ↔ ∃ r, read d block = .ok r ∧ r.name = name := by
  unfold declares
  split
  next r hr => simp [hr]
  next e he => simp [he]

/-- What is wrong with a block that stands after others. A name is taken by the first block that
declares it. -/
def error? (d : Dialect) (earlier : List Stretch) (block : Stretch) : Option BlockError :=
  match read d block with
  | .error e => some e
  | .ok r => (earlier.find? (declares d r.name)).map fun first =>
      ⟨some r.name, block.range, .duplicate first.range⟩

/-- The block cannot be read, or a block before it that can be read declares its name. -/
def Offends (d : Dialect) (earlier : List Stretch) (block : Stretch) : Prop :=
  (∃ e, read d block = .error e) ∨
    ∃ r, read d block = .ok r ∧ ∃ b ∈ earlier, ∃ s, read d b = .ok s ∧ s.name = r.name

theorem isSome_error? {d : Dialect} {earlier : List Stretch} {block : Stretch} :
    (error? d earlier block).isSome = true ↔ Offends d earlier block := by
  unfold error? Offends
  cases hread : read d block with
  | error e => simp
  | ok r => simp [declares_iff]

/-- What is wrong with each of the blocks, in their order. -/
def errors (d : Dialect) (blocks : List Stretch) : List BlockError :=
  blocks.zipIdx.filterMap fun (block, i) => error? d (blocks.take i) block

@[simp] theorem errors_nil (d : Dialect) : errors d [] = [] := rfl

/-- A block is judged by those before it, whatever follows. -/
theorem errors_append_singleton (d : Dialect) (blocks : List Stretch) (block : Stretch) :
    errors d (blocks ++ [block]) = errors d blocks ++ (error? d blocks block).toList := by
  have hbefore : blocks.zipIdx.filterMap
      (fun p => error? d ((blocks ++ [block]).take p.2) p.1) = errors d blocks := by
    refine List.filterMap_congr fun p hp => ?_
    have hi : p.2 < blocks.length := by
      have := List.mem_zipIdx' hp
      exact this.1
    rw [List.take_append_of_le_length (Nat.le_of_lt hi)]
  rw [errors, List.zipIdx_append, List.filterMap_append, hbefore]
  congr 1
  cases h : error? d blocks block <;> simp [h]

theorem errors_ne_nil_iff {d : Dialect} {blocks : List Stretch} : errors d blocks ≠ [] ↔
    ∃ earlier block later, blocks = earlier ++ block :: later ∧ Offends d earlier block := by
  induction blocks using List.reverseRecOn with
  | nil => simp
  | append_singleton blocks block ih =>
    rw [errors_append_singleton, ne_eq, List.append_eq_nil_iff, not_and_or, ← ne_eq, ih]
    constructor
    · rintro (⟨earlier, b, later, rfl, h⟩ | h)
      · exact ⟨earlier, b, later ++ [block], by simp, h⟩
      · refine ⟨blocks, block, [], rfl, isSome_error?.1 ?_⟩
        simpa [Option.isSome_iff_ne_none] using h
    · rintro ⟨earlier, b, later, heq, h⟩
      rcases List.eq_nil_or_concat' later with rfl | ⟨later, last, rfl⟩
      · obtain ⟨rfl, hb⟩ := List.append_inj' heq rfl
        obtain rfl : block = b := by simpa using hb
        refine .inr ?_
        have hs := isSome_error?.2 h
        simpa [Option.isSome_iff_ne_none] using hs
      · have heq : blocks ++ [block] = (earlier ++ b :: later) ++ [last] := by simpa using heq
        obtain ⟨rfl, -⟩ := List.append_inj' heq rfl
        exact .inl ⟨earlier, b, later, rfl, h⟩

end Block

theorem Segment.find?_append_block (segments : List Segment) (declared name : Text)
    (stretch : Stretch) : find? name (segments ++ [.block declared stretch]) =
      (find? name segments).or (if declared = name then some stretch else none) := by
  unfold find?
  rw [List.find?_append, Option.map_or]
  by_cases h : declared = name <;> simp [name?, h, Segment.stretch]

namespace Model

open Loading (addPart)

variable {d : Dialect}

namespace Loading

/-- After some parts, the errors are those of their blocks, and each name is taken by the first
block that declares it. -/
theorem foldl_addPart (d : Dialect) (parts : List Part) :
    (parts.foldl (addPart d) empty).errors = Block.errors d (parts.filterMap Part.block?) ∧
      ∀ name, Segment.find? name (parts.foldl (addPart d) empty).segments =
        (parts.filterMap Part.block?).find? (Block.declares d name) := by
  induction parts using List.reverseRecOn with
  | nil => exact ⟨rfl, fun _ => rfl⟩
  | append_singleton parts part ih =>
    obtain ⟨herrors, hfind⟩ := ih
    rw [List.foldl_append, List.foldl_cons, List.foldl_nil, List.filterMap_append]
    generalize parts.foldl (addPart d) empty = l at herrors hfind
    generalize parts.filterMap Part.block? = blocks at herrors hfind
    cases part with
    | verbatim stretch =>
      have hb : [Part.verbatim stretch].filterMap Part.block? = [] := rfl
      rw [hb, List.append_nil]
      refine ⟨herrors, fun name => ?_⟩
      rw [← hfind]
      simp [addPart, Segment.find?, Segment.name?]
    | block stretch =>
      have hb : [Part.block stretch].filterMap Part.block? = [stretch] := rfl
      rw [hb, Block.errors_append_singleton, ← herrors]
      simp only [List.find?_append, ← hfind]
      cases hread : Block.read d stretch with
      | error e =>
        refine ⟨by simp [addPart, Block.error?, hread, fail], fun name => ?_⟩
        simp [addPart, Block.declares, hread, fail]
      | ok r =>
        cases hfirst : Segment.find? r.name l.segments with
        | some first =>
          refine ⟨by simp [addPart, Block.error?, hread, hfirst, ← hfind, fail], fun name => ?_⟩
          by_cases hname : r.name = name
          · subst hname
            simp [addPart, hread, hfirst, fail]
          · simp [addPart, hread, hfirst, fail, Block.declares, hname]
        | none =>
          refine ⟨by simp [addPart, Block.error?, hread, hfirst, ← hfind], fun name => ?_⟩
          have hadd : (addPart d l (.block stretch)).segments =
              l.segments ++ [.block r.name stretch] := by
            simp [addPart, hread, hfirst]
          rw [hadd, Segment.find?_append_block]
          simp [Block.declares, hread]

end Loading

variable {source : Text} {sections : Sections} {parts : List Part}

/-- A load whose document has its parts reports what is wrong with their blocks. -/
theorem load_eq_error_iff (hsections : Sections.ofLines d (Line.split source) = .ok sections)
    (hparts : Part.extract sections.declarations = .ok parts) {e : LoadFailure} :
    load d source = .error e ↔ Block.errors d (parts.filterMap Part.block?) ≠ [] ∧
      e = .blocks (Block.errors d (parts.filterMap Part.block?)) := by
  have herrors := (Loading.foldl_addPart d parts).1
  simp only [load, hsections, hparts, mapError_ok, bind, Except.bind]
  rw [← herrors]
  generalize parts.foldl (addPart d) Loading.empty = l
  cases hl : l.errors with
  | nil => simp [pure, Except.pure]
  | cons error errors =>
    simp only [List.isEmpty_cons, Bool.false_eq_true, if_false, ne_eq, reduceCtorEq,
      not_false_eq_true, true_and]
    exact ⟨fun he => (Except.error.inj he).symm, fun he => he ▸ rfl⟩

/-- Where names are not repeated, a record is found under its own. -/
theorem find?_name_of_mem {records : List Record} (hnodup : (records.map Record.name).Nodup)
    {r : Record} (hr : r ∈ records) : (records.find? fun s => s.name = r.name) = some r := by
  induction records with
  | nil => simp at hr
  | cons s records ih =>
    obtain ⟨hs, hnodup⟩ := List.nodup_cons.1 hnodup
    rcases List.mem_cons.1 hr with rfl | hr
    · simp
    · have hne : s.name ≠ r.name := fun heq => hs (heq ▸ List.mem_map_of_mem hr)
      rw [List.find?_cons_of_neg (by simpa using hne), ih hnodup hr]

/-- The variables of a loaded model, in the order of its blocks, are what these were read as. -/
theorem records_of_load {m : Model} (h : load d source = .ok m)
    (hsections : Sections.ofLines d (Line.split source) = .ok sections)
    (hparts : Part.extract sections.declarations = .ok parts) :
    List.Forall₂ (fun block r => ∃ s, Block.read d block = .ok s ∧ r.authored = s.authored)
      (parts.filterMap Part.block?) m.records := by
  obtain ⟨sections', parts', segments, records, hsections', hparts', hreads, hnodup, rfl⟩ :=
    load_eq_ok_iff.1 h
  obtain rfl := Except.ok.inj (hsections.symm.trans hsections')
  obtain rfl := Except.ok.inj (hparts.symm.trans hparts')
  have hfind : ∀ r ∈ records, ∃ s, ((Graph.ofRecords records).classified d).find? r.name = some s ∧
      s.authored = r.authored := by
    intro r hr
    have hk := Graph.authored_rebuilt d records r.name
    rw [find?_name_of_mem hnodup hr] at hk
    exact Option.map_eq_some_iff.1 hk
  rw [Model.records, Document.names, hreads.names_eq]
  generalize (Graph.ofRecords records).classified d = g at hfind
  have hblocks := hreads.forall₂_blocks
  clear hreads hnodup h hsections hsections' hparts hparts'
  generalize parts.filterMap Part.block? = blocks at hblocks ⊢
  induction hblocks with
  | nil => exact .nil
  | cons hread _ ih =>
    obtain ⟨hr, hrecords⟩ := List.forall_mem_cons.1 hfind
    obtain ⟨s, hs, heq⟩ := hr
    rw [List.map_cons, List.filterMap_cons_some hs]
    exact .cons ⟨_, hread, heq⟩ (ih hrecords)

/-- When the document has its parts, a load fails just when a block cannot be read or declares the
name of a block before it that can. It reports each such block and no other, in order: why it cannot
be read, or the lines of the first block that declares its name. Otherwise it gives one variable for
each block, defined as the block is read. -/
theorem load_reports_blocks (hsections : Sections.ofLines d (Line.split source) = .ok sections)
    (hparts : Part.extract sections.declarations = .ok parts) :
    ((∃ e, load d source = .error e) ↔ ∃ earlier block later,
      parts.filterMap Part.block? = earlier ++ block :: later ∧ Block.Offends d earlier block) ∧
    (∀ e, load d source = .error e →
      e = .blocks (Block.errors d (parts.filterMap Part.block?))) ∧
    (∀ earlier block, (Block.error? d earlier block).isSome = true ↔
      Block.Offends d earlier block) ∧
    ∀ m, load d source = .ok m →
      m.graph.records.size = (parts.filterMap Part.block?).length ∧
      List.Forall₂ (fun block r => ∃ s, Block.read d block = .ok s ∧ r.authored = s.authored)
        (parts.filterMap Part.block?) m.records := by
  refine ⟨?_, fun e he => ((load_eq_error_iff hsections hparts).1 he).2,
    fun _ _ => Block.isSome_error?, fun m hm => ?_⟩
  · rw [← Block.errors_ne_nil_iff]
    simp only [load_eq_error_iff hsections hparts]
    exact ⟨fun ⟨_, hn, _⟩ => hn, fun hn => ⟨_, hn, rfl⟩⟩
  · have hrecords := records_of_load hm hsections hparts
    refine ⟨?_, hrecords⟩
    rw [hrecords.length_eq, (records_perm hm (evolved_of_load hm)).length_eq]
    rfl

/-- A name that is declared first in a block without a comment, and three times after it. -/
def repeatedName : Text :=
  ("\x7bUTF-8\x7d\nx = 1\n\t~\n\nx = 2\n\t~\n\t~\t|\n\nx = 3\n\t~\n\t~\t|\n\n" ++
    ":MACRO: m\nx = 4\n:END OF MACRO:\n1x\n\nx = 5\n\t~\n\t~\t|\n\n***\n").toList

theorem repeatedName_reported : ∃ sections parts,
    Sections.ofLines .standard (Line.split repeatedName) = .ok sections ∧
      Part.extract sections.declarations = .ok parts ∧
      load .standard repeatedName =
        .error (.blocks (Block.errors .standard (parts.filterMap Part.block?))) ∧
      Block.errors .standard (parts.filterMap Part.block?) =
        [⟨some ['x'], ⟨1, 3⟩, .noComment⟩, ⟨some ['x'], ⟨8, 11⟩, .duplicate ⟨4, 7⟩⟩,
          ⟨none, ⟨15, 16⟩, .noName ['1', 'x']⟩,
          ⟨some ['x'], ⟨17, 20⟩, .duplicate ⟨4, 7⟩⟩] := by
  have herrors : ((Sections.ofLines .standard (Line.split repeatedName)).toOption.bind fun s =>
      (Part.extract s.declarations).toOption).map (fun parts =>
        Block.errors .standard (parts.filterMap Part.block?)) =
        some [⟨some ['x'], ⟨1, 3⟩, .noComment⟩, ⟨some ['x'], ⟨8, 11⟩, .duplicate ⟨4, 7⟩⟩,
          ⟨none, ⟨15, 16⟩, .noName ['1', 'x']⟩,
          ⟨some ['x'], ⟨17, 20⟩, .duplicate ⟨4, 7⟩⟩] := by
    decide +kernel
  obtain ⟨parts, hparts, hlist⟩ := Option.map_eq_some_iff.1 herrors
  obtain ⟨sections, hsections, hparts⟩ := Option.bind_eq_some_iff.1 hparts
  have hs := eq_ok_of_toOption hsections
  have hp := eq_ok_of_toOption hparts
  obtain ⟨hfails, hreports, -, -⟩ := load_reports_blocks hs hp
  obtain ⟨e, he⟩ := hfails.2 (Block.errors_ne_nil_iff.1 (by simp [hlist]))
  exact ⟨sections, parts, hs, hp, (hreports e he) ▸ he, hlist⟩

end Model

end StockFlow
