import StockFlow.Proofs.Authored
import StockFlow.Proofs.Loading
import StockFlow.Proofs.Rebuilding

/-! Models after any number of edits. An edit either leaves the model as it is or puts one authored
record in the place of another of the same name; the invariants of a run are read off this. A run
that starts at a loaded model ends in a graph that its records give when they are put together
anew. -/
namespace StockFlow

/-- The lines of a block. -/
def Part.block? : Part → Option Stretch
  | verbatim _ => none
  | block stretch => some stretch

/-- The records of blocks that can all be read. -/
theorem Reads.forall₂_blocks {d : Dialect} {parts : List Part} {segments : List Segment}
    {records : List Record} (h : Reads d parts segments records) :
    List.Forall₂ (fun block r => Block.read d block = .ok r) (parts.filterMap Part.block?)
      records := by
  induction h with
  | nil => exact .nil
  | verbatim _ ih => exact ih
  | block hr _ ih => exact .cons hr ih

/-! ### One edit -/

theorem IsAuthored.congr {d : Dialect} {r s : Record} (h : IsAuthored d r)
    (hs : s.authored = r.authored) : IsAuthored d s := by
  obtain ⟨name, operator, equation, units, comment, parents, children, role⟩ := r
  obtain ⟨name', operator', equation', units', comment', parents', children', role'⟩ := s
  simp only [Record.authored, Record.mk.injEq] at hs
  obtain ⟨rfl, rfl, rfl, rfl, rfl, rfl, -, -⟩ := hs
  exact ⟨h.name, h.nameEnds, h.units, h.comment, h.source⟩

namespace Model

/-- An edit leaves the model as it is, or it redefines a variable and marks it as edited. -/
theorem edit_cases {m m' : Model} {name : Text} {e : Edit} (h : m.edit name e = .ok m') :
    m' = m ∨ ∃ current r graph, m.graph.find? name = some current ∧
      e.apply m.dialect current = .ok r ∧ r.authored ≠ current.authored ∧
      m.graph.redefine? r = some graph ∧
      m' = { m with graph := graph.classified m.dialect, edited := m.edited.insert name } := by
  unfold edit at h
  split at h
  · simp at h
  next current hcurrent =>
    split at h
    · simp at h
    next r happly =>
      split at h
      · exact .inl (Except.ok.inj h).symm
      next hlike =>
        split at h
        · simp at h
        next graph hgraph =>
          have hne : r.authored ≠ current.authored := fun heq =>
            hlike (Record.authoredLike_iff.2 heq)
          exact .inr ⟨current, r, graph, hcurrent, happly, hne, hgraph, (Except.ok.inj h).symm⟩

/-- The model after an edit of the variable with the given name; an edit that fails leaves the model
as it is. -/
def step (m : Model) (s : Text × Edit) : Model := (m.edit s.1 s.2).toOption.getD m

/-- The model after one edit after another. -/
def after (m : Model) (steps : List (Text × Edit)) : Model := steps.foldl step m

theorem after_append (m : Model) (steps more : List (Text × Edit)) :
    m.after (steps ++ more) = (m.after steps).after more := List.foldl_append

/-- What one edit keeps, a run keeps. -/
theorem after_induction {P : Model → Prop} {m : Model} (h : P m)
    (hedit : ∀ {m m' name e}, P m → m.edit name e = .ok m' → P m')
    (steps : List (Text × Edit)) : P (m.after steps) := by
  induction steps generalizing m with
  | nil => exact h
  | cons s steps ih =>
    refine ih (m := m.step s) ?_
    unfold step
    cases he : m.edit s.1 s.2 with
    | error e => exact h
    | ok m' => exact hedit h he

/-- What is authored in a model that one edit has changed. -/
theorem authored_redefined {m : Model} {name : Text} {e : Edit} {current r : Record}
    {graph : Graph} (hcurrent : m.graph.find? name = some current)
    (happly : e.apply m.dialect current = .ok r) (hgraph : m.graph.redefine? r = some graph)
    (k : Text) : ((graph.classified m.dialect).find? k).map Record.authored =
      if k = name then some r.authored else (m.graph.find? k).map Record.authored := by
  obtain ⟨old, -, hchildless⟩ := Graph.childless_redefine? hgraph
  have hname : r.name = name :=
    (Edit.name_of_apply happly).1.trans (Catalog.key_of_find? hcurrent)
  rw [Graph.sameAuthored_classified m.dialect graph k]
  have hk := congrArg (Option.map Record.authored) (hchildless k)
  rw [Option.map_map] at hk
  rw [show Option.map Record.authored (graph.find? k) =
    Option.map (Record.authored ∘ Record.childless) (graph.find? k) from rfl, hk]
  by_cases h : k = name
  · rw [if_pos (hname.trans h.symm), if_pos h]
    rfl
  · rw [if_neg fun hr => h (hr.symm.trans hname), if_neg h, Option.map_map]
    rfl

/-- The edited variable is what the edit makes of it, whether or not that changes it. -/
theorem authored_of_edit {m m' : Model} {name : Text} {e : Edit} (h : m.edit name e = .ok m') :
    ∃ current r, m.graph.find? name = some current ∧ e.apply m.dialect current = .ok r ∧
      (m'.graph.find? name).map Record.authored = some r.authored := by
  cases hcurrent : m.graph.find? name with
  | none => simp [edit, hcurrent] at h
  | some current =>
    cases happly : e.apply m.dialect current with
    | error error => simp [edit, hcurrent, happly] at h
    | ok r =>
      refine ⟨current, r, rfl, happly, ?_⟩
      simp only [edit, hcurrent, happly] at h
      split at h
      next hlike =>
        obtain rfl := Except.ok.inj h
        rw [hcurrent, Option.map_some, Record.authoredLike_iff.1 hlike]
      next =>
        split at h
        · simp at h
        next graph hgraph =>
          rw [← Except.ok.inj h]
          exact (authored_redefined hcurrent happly hgraph name).trans (if_pos rfl)

/-- What an edit keeps of every record that it is applied to, it keeps of all records. -/
theorem forall_records_edit {P : Record → Prop} {m m' : Model} {name : Text} {e : Edit}
    (he : m.edit name e = .ok m')
    (hcongr : ∀ {r s}, P r → s.authored = r.authored → P s)
    (happly : ∀ {r s}, P r → e.apply m.dialect r = .ok s → P s)
    (h : ∀ {k r}, m.graph.find? k = some r → P r) {k : Text} {r : Record}
    (hr : m'.graph.find? k = some r) : P r := by
  rcases edit_cases he with rfl | ⟨current, s, graph, hcurrent, hs, -, hgraph, rfl⟩
  · exact h hr
  · have hk := authored_redefined hcurrent hs hgraph k
    rw [hr, Option.map_some] at hk
    split at hk
    · exact hcongr (happly (h hcurrent) hs) (Option.some.inj hk)
    · obtain ⟨t, ht, heq⟩ := Option.map_eq_some_iff.1 hk.symm
      exact hcongr (h ht) heq.symm

/-! ### A run -/

/-- What a model has in common with the one that it was edited from. -/
structure Evolved (original m : Model) : Prop where
  dialect : m.dialect = original.dialect
  document : m.document = original.document
  settled : m.graph.Settled m.dialect
  authored : ∀ {k r}, m.graph.find? k = some r → IsAuthored m.dialect r
  operators : ∀ k, (m.graph.find? k).map Record.operator =
    (original.graph.find? k).map Record.operator
  unedited : ∀ k, k ∉ m.edited.items → (m.graph.find? k).map Record.authored =
    (original.graph.find? k).map Record.authored

theorem Evolved.names {original m : Model} (h : Evolved original m) (k : Text) :
    (m.graph.find? k).isSome = (original.graph.find? k).isSome := by
  have hk := congrArg Option.isSome (h.operators k)
  rwa [Option.isSome_map, Option.isSome_map] at hk

theorem Evolved.edit {original m m' : Model} {name : Text} {e : Edit} (h : Evolved original m)
    (he : m.edit name e = .ok m') : Evolved original m' := by
  have hrecords {k : Text} {r : Record} (hr : m'.graph.find? k = some r) : IsAuthored m.dialect r :=
    forall_records_edit he (fun h hs => h.congr hs) isAuthored_of_apply h.authored hr
  rcases edit_cases he with rfl | ⟨current, r, graph, hcurrent, happly, -, hgraph, rfl⟩
  · exact h
  · have hauthored := authored_redefined hcurrent happly hgraph
    refine ⟨h.dialect, h.document, (h.settled.linked.redefine? hgraph).settled_classified _,
      hrecords, fun k => ?_, fun k hk => ?_⟩
    · have hk := congrArg (Option.map Record.operator) (hauthored k)
      rw [Option.map_map] at hk
      rw [← h.operators k]
      refine hk.trans ?_
      split
      next heq =>
        rw [heq, hcurrent]
        exact congrArg some (Edit.name_of_apply happly).2
      next => rw [Option.map_map]; rfl
    · simp only [Catalog.mem_insert, not_or] at hk
      rw [hauthored, if_neg hk.1]
      exact h.unedited k hk.2

theorem Evolved.after {original m : Model} (h : Evolved original m) (steps : List (Text × Edit)) :
    Evolved original (m.after steps) :=
  after_induction h (fun h he => h.edit he) steps

/-! ### Loaded models -/

section Loaded

variable {d : Dialect} {source : Text} {m : Model}

theorem dialect_of_load (h : load d source = .ok m) : m.dialect = d := by
  obtain ⟨_, _, _, _, -, -, -, -, rfl⟩ := load_eq_ok_iff.1 h
  rfl

theorem evolved_of_load (h : load d source = .ok m) : Evolved m m := by
  obtain ⟨sections, parts, segments, records, -, -, hreads, -, rfl⟩ := load_eq_ok_iff.1 h
  refine ⟨rfl, rfl, (Graph.linked_ofRecords records).settled_classified d, fun {k r} hr => ?_,
    fun k => rfl, fun k _ => rfl⟩
  obtain ⟨s, hs, heq⟩ := Graph.exists_of_rebuilt hr
  obtain ⟨block, -, hblock⟩ := hreads.exists_block s hs
  exact (Block.isAuthored_of_read hblock).congr heq.symm

/-- The variables of a loaded model are those that its blocks declare. -/
theorem mem_names_of_load (h : load d source = .ok m) (k : Text) :
    k ∈ m.document.names ↔ (m.graph.find? k).isSome = true := by
  obtain ⟨sections, parts, segments, records, -, -, hreads, -, rfl⟩ := load_eq_ok_iff.1 h
  have hk := congrArg Option.isSome (Graph.authored_rebuilt d records k)
  rw [Option.isSome_map, Option.isSome_map] at hk
  rw [hk, Document.names, hreads.names_eq, List.mem_map, List.find?_isSome]
  simp

theorem nodup_names_of_load (h : load d source = .ok m) : m.document.names.Nodup := by
  obtain ⟨sections, parts, segments, records, -, -, hreads, hnodup, rfl⟩ := load_eq_ok_iff.1 h
  rw [Document.names, hreads.names_eq]
  exact hnodup

/-- The names of the document are declared by the blocks of its source, in their order. -/
theorem declared_of_load (h : load d source = .ok m) : ∃ sections parts,
    Sections.ofLines d (Line.split source) = .ok sections ∧
      Part.extract sections.declarations = .ok parts ∧
      List.Forall₂ (fun block name => ∃ r, Block.read d block = .ok r ∧ r.name = name)
        (parts.filterMap Part.block?) m.document.names := by
  obtain ⟨sections, parts, segments, records, hsections, hparts, hreads, -, rfl⟩ :=
    load_eq_ok_iff.1 h
  refine ⟨sections, parts, hsections, hparts, ?_⟩
  rw [Document.names, hreads.names_eq, List.forall₂_map_right_iff]
  exact hreads.forall₂_blocks.imp fun _ r hr => ⟨r, hr, rfl⟩

end Loaded

/-! ### The records of a model -/

section Records

variable {find : Text → Option Record} (hfind : ∀ {k r}, find k = some r → r.name = k)
include hfind

theorem map_name_filterMap {names : List Text} (hsome : ∀ k ∈ names, (find k).isSome = true) :
    (names.filterMap find).map Record.name = names := by
  induction names with
  | nil => rfl
  | cons k names ih =>
    obtain ⟨hk, hnames⟩ := List.forall_mem_cons.1 hsome
    obtain ⟨r, hr⟩ := Option.isSome_iff_exists.1 hk
    rw [List.filterMap_cons_some hr, List.map_cons, ih hnames, hfind hr]

theorem find?_filterMap (names : List Text) (k : Text) :
    (names.filterMap find).find? (fun r => r.name = k) = if k ∈ names then find k else none := by
  induction names with
  | nil => rfl
  | cons k' names ih =>
    cases hk' : find k' with
    | none =>
      rw [List.filterMap_cons_none hk', ih]
      by_cases heq : k = k'
      · subst heq
        simp [hk']
      · simp [heq]
    | some r =>
      rw [List.filterMap_cons_some hk', List.find?_cons]
      have hname := hfind hk'
      by_cases heq : k = k'
      · subst heq
        simp [hname, hk']
      · have hne : r.name ≠ k := fun h => heq (h.symm.trans hname)
        simp [hne, ih, heq]

end Records

theorem map_name_records {d : Dialect} {source : Text} {original m : Model}
    (h : load d source = .ok original) (hm : Evolved original m) :
    m.records.map Record.name = m.document.names := by
  refine map_name_filterMap (fun hr => Catalog.key_of_find? hr) fun k hk => ?_
  rw [hm.document] at hk
  exact (hm.names k).trans ((mem_names_of_load h k).1 hk)

theorem find?_records {d : Dialect} {source : Text} {original m : Model}
    (h : load d source = .ok original) (hm : Evolved original m) (k : Text) :
    (m.records.find? fun r => r.name = k) = m.graph.find? k := by
  have hname {k : Text} {r : Record} (hr : m.graph.find? k = some r) : r.name = k :=
    Catalog.key_of_find? hr
  refine (find?_filterMap hname m.document.names k).trans ?_
  split
  · rfl
  next hk =>
    rw [hm.document, mem_names_of_load h, ← hm.names] at hk
    exact (Option.not_isSome_iff_eq_none.1 hk).symm

end Model

end StockFlow
