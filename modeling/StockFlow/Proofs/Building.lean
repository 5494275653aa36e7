import StockFlow.Proofs.Incremental
import StockFlow.Proofs.Reordering

/-! Graphs put together from records. A builder takes the first record of each name and hands the
others back, and what it has taken gives the same graph in any order. The records of that graph are as
they were taken, but for their children, which are the edges to the parents turned around. An edge
that leads to no record is listed as dangling. -/
namespace StockFlow.Graph

/-- Children are the parents turned around, where both records are there. -/
theorem Linked.mem_children {g : Graph} (h : g.Linked) (p c : Text) :
    (∃ r, g.find? p = some r ∧ c ∈ r.children.items) ↔
      g.Edge c p ∧ g.contains c = true ∧ g.contains p = true := by
  rw [contains_eq_isSome, contains_eq_isSome]
  constructor
  · rintro ⟨r, hr, hc⟩
    obtain ⟨s, hs, hp⟩ : g.Edge c p := (h.children hr c).1 hc
    exact ⟨⟨s, hs, hp⟩, by simp [hs], by simp [hr]⟩
  · rintro ⟨hedge, -, hp⟩
    obtain ⟨r, hr⟩ := Option.isSome_iff_exists.1 hp
    exact ⟨r, hr, (h.children hr c).2 hedge⟩

theorem Linked.mem_dangling {g : Graph} (h : g.Linked) (v p : Text) :
    ⟨v, p⟩ ∈ g.dangling.items ↔ g.Edge v p ∧ g.contains p = false := by
  rw [h.dangling, contains_eq_isSome, Option.isSome_eq_false_iff, Option.isNone_iff_eq_none]

namespace Builder

/-- What the builder has taken can be added again in any order, and none of it is refused. -/
theorem addAll_perm (b : Builder) {order : List Record} (h : order.Perm b.records.items) :
    empty.addAll order = (b, order.map fun _ => none) := by
  have hnodup : (order.map Record.name).Nodup :=
    (h.map Record.name).nodup_iff.2 (Catalog.nodup_keys b.records)
  have hrecords : (empty.addAll order).1.records = b.records := by
    refine Catalog.ext_find? fun k => ?_
    rw [find?_addAll]
    exact find?_name_perm h hnodup k
  refine Prod.ext ?_ (refused_addAll (fun _ _ => rfl) hnodup)
  exact congrArg Builder.mk hrecords

/-- What becomes of records that are added in order: the builder that has them, and its answer to each
of them, which is the record itself if it was refused. -/
structure IsFilled (records : List Record) (b : Builder) (answers : List (Option Record)) : Prop where
  /-- A record is refused just if its name was added before. -/
  answers : ∀ i, answers[i]? = records[i]?.map fun r =>
    if r.name ∈ (records.take i).map Record.name then some r else none
  /-- Of each name the first record is taken. -/
  first : ∀ k, b.records.find? k = records.find? fun r => r.name = k
  /-- The graph has what was taken, but for the children that it came with. -/
  taken : ∀ k, (b.build.find? k).map Record.childless = (b.records.find? k).map Record.childless
  children : ∀ p c, (∃ r, b.build.find? p = some r ∧ c ∈ r.children.items) ↔
    b.build.Edge c p ∧ b.build.contains c = true ∧ b.build.contains p = true
  dangling : ∀ v p, ⟨v, p⟩ ∈ b.build.dangling.items ↔ b.build.Edge v p ∧ b.build.contains p = false
  /-- Neither the graph nor anything else changes if what was taken is added in another order. -/
  reordered : ∀ order : List Record, order.Perm b.records.items →
    empty.addAll order = (b, order.map fun _ => none) ∧ ofRecords order = b.build

/-- Whatever the records are, and whatever children they came with, this is how a builder takes them. -/
theorem isFilled_addAll (records : List Record) :
    IsFilled records (empty.addAll records).1 (empty.addAll records).2 := by
  have hlinked := linked_ofRecords records
  refine ⟨fun i => ?_, fun k => ?_, fun k => childless_link _ k, hlinked.mem_children,
    hlinked.mem_dangling, fun order horder => ?_⟩
  · rw [getElem?_addAll]
    simp [empty]
  · rw [find?_addAll]
    rfl
  · have hadd := addAll_perm _ horder
    exact ⟨hadd, by rw [ofRecords, hadd]⟩

end Builder

end StockFlow.Graph
