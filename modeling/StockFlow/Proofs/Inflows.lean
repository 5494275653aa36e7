import StockFlow.Proofs.Incremental

/-! Roles and edges of models after any edits. A stock whose equation has been checked calls the
stock function with a flow and an initial value, and what its flow refers to is among its parents, so
that a flow has a stock for a child. A subscript range escapes the check: it lists elements, and none
of them is a parent, but when it reads like a call of the stock function it is classified as a
stock. -/
namespace StockFlow

/-! ### Equations that call the stock function -/

theorem checkStock_eq_ok {d : Dialect} {equation : Text} (h : checkStock d equation = .ok ())
    (hs : d.callsStock equation = true) :
    ∃ flow initial, Call.arguments equation d.stock.text = .ok [flow, initial] := by
  rw [checkStock, if_pos hs] at h
  split at h
  next flow initial hargs => exact ⟨flow, initial, hargs⟩
  all_goals simp at h

/-- A stock that is no subscript range has been checked, and all that its equation refers to are its
parents. -/
theorem IsAuthored.stock {d : Dialect} {r : Record} (h : IsAuthored d r)
    (hs : d.callsStock r.equation = true) (hop : r.operator ≠ .subscriptRange) :
    (∃ flow initial, Call.arguments r.equation d.stock.text = .ok [flow, initial]) ∧
      r.parents = Catalog.ofList (references d r.equation) := by
  obtain ⟨t, -, ht⟩ := h.source
  have hdepends := dependencies_eq_ok_iff.1 ht
  generalize r.operator = operator, r.equation = equation, r.parents = parents at hdepends hs hop ⊢
  cases hdepends with
  | range => exact absurd rfl hop
  | placeholder =>
    rw [Dialect.callsStock, CallPattern.fits_nil] at hs
    exact absurd hs Bool.false_ne_true
  | equation _ _ hchecked => exact ⟨checkStock_eq_ok hchecked hs, rfl⟩

/-- What the flow of an equation refers to, the whole equation refers to. -/
theorem Graph.inflows_subset (d : Dialect) (r : Record) :
    inflows d r ⊆ references d r.equation := by
  intro k hk
  unfold inflows Call.argument at hk
  cases hargs : Call.arguments r.equation d.stock.text with
  | error e => simp [hargs] at hk
  | ok args =>
    cases hflow : args[0]? with
    | none => simp [hargs, hflow] at hk
    | some flow =>
      obtain ⟨t, ht, rfl⟩ := Call.arguments_run hargs flow (List.mem_of_getElem? hflow)
      exact references_subset ht (by simpa [hargs, hflow] using hk)

/-! ### Roles -/

namespace Graph

variable {d : Dialect} {g : Graph} {k : Text} {r : Record}

theorem Settled.role_eq (h : Settled d g) (hr : g.find? k = some r) :
    r.role = roleOf d (allInflows d g.records.items) r := by
  have hclassified := role_of_classified (d := d) (g := g) (k := k) (r := r) (by rwa [h.roles])
  rwa [h.roles] at hclassified

theorem Settled.stock_iff (h : Settled d g) (hr : g.find? k = some r) :
    r.role = .stock ↔ d.callsStock r.equation = true := by
  rw [h.role_eq hr, roleOf]
  split
  next hs => simp [hs]
  next hs => split <;> [skip; split] <;> simp [hs]

/-- A flow is what the flow of some stock refers to, if it is no stock itself. -/
theorem Settled.flow_iff (h : Settled d g) (hr : g.find? k = some r) : r.role = .flow ↔
    r.role ≠ .stock ∧ ∃ s, g.find? s.name = some s ∧ s.role = .stock ∧ k ∈ inflows d s := by
  have hname : r.name = k := Catalog.key_of_find? hr
  have hmem : k ∈ allInflows d g.records.items ↔
      ∃ s, g.find? s.name = some s ∧ s.role = .stock ∧ k ∈ inflows d s := by
    simp only [allInflows, List.mem_flatMap, List.mem_filter]
    constructor
    · rintro ⟨s, ⟨hs, hcalls⟩, hk⟩
      have hfind : g.find? s.name = some s := Catalog.find?_of_mem hs
      exact ⟨s, hfind, (h.stock_iff hfind).2 hcalls, hk⟩
    · rintro ⟨s, hfind, hrole, hk⟩
      exact ⟨s, ⟨Catalog.mem_of_find? hfind, (h.stock_iff hfind).1 hrole⟩, hk⟩
  rw [← hmem, ne_eq, h.stock_iff hr, h.role_eq hr, roleOf, ← hname]
  by_cases hs : d.callsStock r.equation = true
  · simp [hs]
  · by_cases hf : r.name ∈ allInflows d g.records.items
    · simp [hs, hf]
    · by_cases hp : r.parents.isEmpty = true <;> simp [hs, hf, hp]

end Graph

/-! ### After any edits -/

namespace Model

variable {d : Dialect} {source : Text} {m : Model}

/-- In a model after any edits, the equation of a stock splits into a flow and an initial value, and
a flow is named by the flow of a stock and is among the parents of every such stock, which are among
its children. The exception are subscript ranges: one that reads like a call of the stock function is
a stock, whatever it lists, and gives the role of a flow to variables that are not its parents. -/
theorem stocks_and_flows_after (h : load d source = .ok m) (steps : List (Text × Edit))
    {k : Text} {r : Record} (hr : (m.after steps).graph.find? k = some r) :
    (r.role = .stock → r.operator ≠ .subscriptRange →
      ∃ flow initial, Call.arguments r.equation d.stock.text = .ok [flow, initial]) ∧
    (r.role = .flow →
      (∃ s, (m.after steps).graph.find? s.name = some s ∧ s.role = .stock ∧
        k ∈ Graph.inflows d s) ∧
      ∀ s, (m.after steps).graph.find? s.name = some s → s.role = .stock →
        k ∈ Graph.inflows d s → s.operator ≠ .subscriptRange →
          k ∈ s.parents.items ∧ s.name ∈ r.children.items) := by
  have hm := (evolved_of_load h).after steps
  have hd : (m.after steps).dialect = d := hm.dialect.trans (dialect_of_load h)
  have hsettled := hm.settled
  rw [hd] at hsettled
  have hstocks {k : Text} {s : Record} (hs : (m.after steps).graph.find? k = some s)
      (hrole : s.role = .stock) (hop : s.operator ≠ .subscriptRange) :=
    (hd ▸ hm.authored hs : IsAuthored d s).stock ((hsettled.stock_iff hs).1 hrole) hop
  refine ⟨fun hrole hop => (hstocks hr hrole hop).1, fun hrole => ?_⟩
  refine ⟨((hsettled.flow_iff hr).1 hrole).2, fun s hs hstock hk hop => ?_⟩
  have hparent : k ∈ s.parents.items := by
    rw [(hstocks hs hstock hop).2, Catalog.mem_ofList]
    exact Graph.inflows_subset d s hk
  exact ⟨hparent, (hsettled.linked.children hr s.name).2 ⟨s, hs, hparent⟩⟩

theorem tank_stock_and_flow : ∃ m, load .standard tank = .ok m ∧
    ∃ level inflow, (m.after tankEdits).graph.find? "level".toList = some level ∧
      (m.after tankEdits).graph.find? "inflow".toList = some inflow ∧
      (∃ flow initial, Call.arguments level.equation Dialect.standard.stock.text =
        .ok [flow, initial]) ∧
      "inflow".toList ∈ level.parents.items ∧ level.name ∈ inflow.children.items := by
  have hfacts : (load .standard tank).toOption.bind (fun m =>
      ((m.after tankEdits).graph.find? "level".toList).bind fun level =>
        ((m.after tankEdits).graph.find? "inflow".toList).map fun inflow =>
          (level.operator, level.role, decide ("inflow".toList ∈ Graph.inflows .standard level),
            inflow.role)) = some (.equals, .stock, true, .flow) := by
    decide +kernel
  obtain ⟨m, hm, hfacts⟩ := Option.bind_eq_some_iff.1 hfacts
  have hm := eq_ok_of_toOption hm
  obtain ⟨level, hfind, hfacts⟩ := Option.bind_eq_some_iff.1 hfacts
  obtain ⟨inflow, hfind', hfacts⟩ := Option.map_eq_some_iff.1 hfacts
  simp only [Prod.mk.injEq, decide_eq_true_eq] at hfacts
  obtain ⟨hop, hstock, hmem, hflow⟩ := hfacts
  have hname : level.name = "level".toList := Catalog.key_of_find? hfind
  have hrange : level.operator ≠ .subscriptRange := by simp [hop]
  refine ⟨m, hm, level, inflow, hfind, hfind', ?_, ?_⟩
  · exact (stocks_and_flows_after hm tankEdits hfind).1 hstock hrange
  · exact ((stocks_and_flows_after hm tankEdits hfind').2 hflow).2 level (by rw [hname, hfind])
      hstock hmem hrange

/-- Subscript ranges that list a call of the stock function, with no argument, one and two. -/
def rangesOfCalls : Text :=
  ("\x7bUTF-8\x7d\np: INTEG()\n\t~\n\t~\t|\n\nq: INTEG(y)\n\t~\n\t~\t|\n\n" ++
    "r: INTEG(y, 1)\n\t~\n\t~\t|\n\ny = 1\n\t~\n\t~\t|\n\n***\n").toList

/-- Not every stock has two arguments, some have no flow to be read, and not every flow is a parent of
a stock. -/
theorem not_all_stocks_split : ∃ m, load .standard rangesOfCalls = .ok m ∧
    (∃ p, m.graph.find? ['p'] = some p ∧ p.role = .stock ∧
      ¬ ∃ flow, Call.argument p.equation Dialect.standard.stock.text 0 = .ok flow) ∧
    (∃ q, m.graph.find? ['q'] = some q ∧ q.role = .stock ∧
      ¬ ∃ flow initial, Call.arguments q.equation Dialect.standard.stock.text =
        .ok [flow, initial]) ∧
    ∃ y, m.graph.find? ['y'] = some y ∧ y.role = .flow ∧
      ¬ ∃ s, m.graph.find? s.name = some s ∧ s.role = .stock ∧ ['y'] ∈ s.parents.items := by
  have hfacts : (load .standard rangesOfCalls).toOption.bind (fun m =>
      (m.graph.find? ['p']).bind fun p => (m.graph.find? ['q']).bind fun q =>
        (m.graph.find? ['y']).map fun y =>
          ([p, q, y].map fun r => (r.role, r.equation),
            m.graph.records.items.all fun s => decide (['y'] ∉ s.parents.items))) =
        some ([(.stock, "INTEG()".toList), (.stock, "INTEG(y)".toList), (.flow, ['1'])], true) := by
    decide +kernel
  have hnone : Call.arguments "INTEG()".toList Dialect.standard.stock.text = .ok [] := by
    rw [Call.arguments, Piece.scan_eq_scanUpTo]
    rfl
  have hone : Call.arguments "INTEG(y)".toList Dialect.standard.stock.text = .ok [['y']] := by
    rw [Call.arguments, Piece.scan_eq_scanUpTo]
    rfl
  obtain ⟨m, hm, hfacts⟩ := Option.bind_eq_some_iff.1 hfacts
  obtain ⟨p, hfindp, hfacts⟩ := Option.bind_eq_some_iff.1 hfacts
  obtain ⟨q, hfindq, hfacts⟩ := Option.bind_eq_some_iff.1 hfacts
  obtain ⟨y, hfindy, hfacts⟩ := Option.map_eq_some_iff.1 hfacts
  simp only [List.map_cons, List.map_nil, List.cons.injEq, Prod.mk.injEq, and_true] at hfacts
  obtain ⟨⟨⟨hp, hpeq⟩, ⟨hq, hqeq⟩, hy, -⟩, hparents⟩ := hfacts
  refine ⟨m, eq_ok_of_toOption hm, ⟨p, hfindp, hp, ?_⟩, ⟨q, hfindq, hq, ?_⟩, y, hfindy, hy, ?_⟩
  · rw [hpeq, Call.argument, hnone]
    simp
  · rw [hqeq, hone]
    simp
  · rintro ⟨s, hs, -, hmem⟩
    have hnot := List.all_eq_true.1 hparents s (Catalog.mem_of_find? hs)
    exact (of_decide_eq_true hnot) hmem

end Model

end StockFlow
