import StockFlow.Proofs.Runs

/-! Edits update a graph in place. Whatever the edits were, and whichever of them failed, the graph is
the one that its records give when they are put together from nothing and classified: the same
children, the same dangling references, the same roles. -/
namespace StockFlow

namespace Graph.Builder

/-- Records under different names are all taken. -/
theorem refused_addAll {b : Builder} {records : List Record}
    (hnew : ∀ r ∈ records, b.records.find? r.name = none)
    (hnodup : (records.map Record.name).Nodup) :
    (b.addAll records).2 = records.map fun _ => none := by
  refine List.ext_getElem? fun i => ?_
  rw [getElem?_addAll, List.getElem?_map]
  refine Option.map_congr fun r hr => if_neg ?_
  rintro (hold | hmem)
  · simp [hnew r (List.mem_of_getElem? hr)] at hold
  · obtain ⟨j, hj⟩ := List.mem_iff_getElem?.1 hmem
    rw [List.map_take, List.getElem?_take] at hj
    split at hj
    next hji =>
      have hi : (records.map Record.name)[i]? = some r.name := by simp [hr]
      have hlt : i < (records.map Record.name).length := (List.getElem?_eq_some_iff.1 hi).1
      exact List.nodup_iff_getElem?_ne_getElem?.1 hnodup j i hji hlt (hj.trans hi.symm)
    next => simp at hj

end Graph.Builder

namespace Model

variable {d : Dialect} {source : Text} {original m : Model}

theorem graph_eq_rebuilt (h : load d source = .ok original) (hm : Evolved original m) :
    m.graph = (Graph.ofRecords m.records).classified d := by
  have hd : m.dialect = d := hm.dialect.trans (dialect_of_load h)
  have hsettled := hm.settled
  rw [hd] at hsettled
  refine hsettled.eq_rebuilt fun k => ?_
  rw [find?_records h hm]

theorem nodup_names_records (h : load d source = .ok original) (hm : Evolved original m) :
    (m.records.map Record.name).Nodup := by
  rw [map_name_records h hm, hm.document]
  exact nodup_names_of_load h

/-- The records of a model are those of its graph. -/
theorem records_perm (h : load d source = .ok original) (hm : Evolved original m) :
    m.records.Perm m.graph.records.items := by
  have hitems := List.Nodup.of_map _ (Catalog.nodup_keys m.graph.records)
  have hrecords := List.Nodup.of_map _ (nodup_names_records h hm)
  refine (List.perm_ext_iff_of_nodup hrecords hitems).2 fun r => ?_
  constructor
  · intro hr
    obtain ⟨k, -, hk⟩ := List.mem_filterMap.1 hr
    exact Catalog.mem_of_find? hk
  · intro hr
    have hk : m.graph.find? r.name = some r := Catalog.find?_of_mem hr
    refine List.mem_filterMap.2 ⟨r.name, ?_, hk⟩
    rw [hm.document, mem_names_of_load h, ← hm.names, hk]
    rfl

/-- After any edits the graph of a model is that of its records put together from nothing. No
variable is left without a role, and the records list every variable of the graph once, in the order
of the blocks that declare them. -/
theorem graph_after_eq_rebuilt (h : load d source = .ok m) (steps : List (Text × Edit)) :
    (m.after steps).graph = (Graph.ofRecords (m.after steps).records).classified d ∧
      (Graph.Builder.empty.addAll (m.after steps).records).2 =
        (m.after steps).records.map (fun _ => none) ∧
      (∀ r ∈ (m.after steps).graph.records.items, r.role ≠ .unclassified) ∧
      (m.after steps).records.Perm (m.after steps).graph.records.items ∧
      ∃ sections parts, Sections.ofLines d (Line.split source) = .ok sections ∧
        Part.extract sections.declarations = .ok parts ∧
        List.Forall₂ (fun block r => ∃ s, Block.read d block = .ok s ∧ s.name = r.name)
          (parts.filterMap Part.block?) (m.after steps).records := by
  have hm := (evolved_of_load h).after steps
  generalize m.after steps = current at hm
  have hrebuilt := graph_eq_rebuilt h hm
  refine ⟨hrebuilt, ?_, fun r hr => ?_, records_perm h hm, ?_⟩
  · exact Graph.Builder.refused_addAll (fun _ _ => rfl) (nodup_names_records h hm)
  · rw [hrebuilt] at hr
    exact Graph.role_ne_unclassified (Catalog.find?_of_mem hr)
  · obtain ⟨sections, parts, hsections, hparts, hblocks⟩ := declared_of_load h
    refine ⟨sections, parts, hsections, hparts, ?_⟩
    rw [← hm.document, ← map_name_records h hm, List.forall₂_map_right_iff] at hblocks
    exact hblocks

/-- The flow comes to depend on its stock and on a variable that is not there; the second edit names
no variable. -/
def tankEdits : List (Text × Edit) :=
  [("inflow".toList, ⟨some "level / delay".toList, none, none⟩),
    ("delay".toList, ⟨some "2".toList, none, none⟩)]

theorem tank_graph_after_edits : ∃ m, load .standard tank = .ok m ∧
    (m.after tankEdits).graph =
      (Graph.ofRecords (m.after tankEdits).records).classified .standard := by
  obtain ⟨m, hm⟩ := tank_loads
  exact ⟨m, hm, (graph_after_eq_rebuilt hm tankEdits).1⟩

end Model

end StockFlow
