import StockFlow.Proofs.Runs

/-! Edits that do not meet. An edit puts a definition in the place of another and marks the variable
if the two differ; the graph follows from the definitions. Two edits of different variables, or of
different texts of one variable, therefore give the same model in either order, though each may link
the variables that the other redefines. -/
namespace StockFlow

/-! ### Edits of a record -/

namespace Edit

/-- No text is given by both edits. -/
def Disjoint (e f : Edit) : Prop :=
  (e.equation = none ∨ f.equation = none) ∧ (e.units = none ∨ f.units = none) ∧
    (e.comment = none ∨ f.comment = none)

instance (e f : Edit) : Decidable (Disjoint e f) := inferInstanceAs (Decidable (_ ∧ _ ∧ _))

variable {d : Dialect} {e f : Edit} {r s t : Record}

theorem Disjoint.symm (h : Disjoint e f) : Disjoint f e :=
  ⟨h.1.symm, h.2.1.symm, h.2.2.symm⟩

/-- Children and role have no part in an edit. -/
theorem apply_congr (hs : s.authored = r.authored) (h : e.apply d r = .ok t) :
    ∃ u, e.apply d s = .ok u ∧ u.authored = t.authored := by
  obtain ⟨name, operator, equation, units, comment, parents, children, role⟩ := r
  obtain ⟨name', operator', equation', units', comment', parents', children', role'⟩ := s
  simp only [Record.authored, Record.mk.injEq] at hs
  obtain ⟨rfl, rfl, rfl, rfl, rfl, rfl, -, -⟩ := hs
  obtain ⟨new, hnew, rfl⟩ := apply_eq_ok_iff.1 h
  exact ⟨_, apply_eq_ok_iff.2 ⟨new, hnew, rfl⟩, rfl⟩

theorem elim_comm {a b : Option Text} (h : a = none ∨ b = none) (old : Text) :
    b.elim (a.elim old oneLine) oneLine = a.elim (b.elim old oneLine) oneLine := by
  rcases h with rfl | rfl <;> rfl

theorem apply_comm_of_equation (h : Disjoint e f) (hequation : f.equation = none)
    (he : e.apply d r = .ok s) (hf : f.apply d r = .ok t) :
    ∃ u, f.apply d s = .ok u ∧ e.apply d t = .ok u := by
  obtain ⟨new, hnew, rfl⟩ := apply_eq_ok_iff.1 he
  obtain ⟨same, hsame, rfl⟩ := apply_eq_ok_iff.1 hf
  have hkeeps (operator : Operator) (old : Text × NameSet) : f.Brings d operator old old := by
    simp [Brings, hequation]
  obtain rfl : same = (r.equation, r.parents) := by simpa [Brings, hequation] using hsame
  refine ⟨_, apply_eq_ok_iff.2 ⟨new, hkeeps _ _, rfl⟩, apply_eq_ok_iff.2 ⟨new, hnew, ?_⟩⟩
  simp [elim_comm h.2.1, elim_comm h.2.2]

theorem apply_comm (h : Disjoint e f) (he : e.apply d r = .ok s) (hf : f.apply d r = .ok t) :
    ∃ u, f.apply d s = .ok u ∧ e.apply d t = .ok u := by
  rcases h.1 with hequation | hequation
  · obtain ⟨u, hu, hu'⟩ := apply_comm_of_equation h.symm hequation hf he
    exact ⟨u, hu', hu⟩
  · exact apply_comm_of_equation h hequation he hf

/-- After two edits of which the first changes nothing, there is what the second alone makes. So
whichever comes first, some edit of the two changes the record or none does. -/
theorem unchanged_comm {u : Record} (he : e.apply d r = .ok s) (hf : f.apply d r = .ok t)
    (hfs : f.apply d s = .ok u) (het : e.apply d t = .ok u) :
    (r.authored = s.authored ∧ s.authored = u.authored) ↔
      (r.authored = t.authored ∧ t.authored = u.authored) := by
  have hsecond {g : Edit} {v w : Record} (hv : r.authored = v.authored)
      (hg : g.apply d r = .ok w) (hgv : g.apply d v = .ok u) : u.authored = w.authored := by
    obtain ⟨x, hx, heq⟩ := apply_congr hv.symm hg
    obtain rfl := Except.ok.inj (hgv.symm.trans hx)
    exact heq
  constructor
  · rintro ⟨hs, hu⟩
    have heq := hsecond hs hf hfs
    exact ⟨hs.trans (hu.trans heq), heq.symm⟩
  · rintro ⟨ht, hu⟩
    have heq := hsecond ht he het
    exact ⟨ht.trans (hu.trans heq), heq.symm⟩

end Edit

/-! ### Edits of a model -/

namespace Model

/-- What an edit makes of a model: the variable is defined as `r`, and marked as edited if it was
defined otherwise. -/
structure Redefines (m : Model) (name : Text) (r : Record) (m' : Model) : Prop where
  dialect : m'.dialect = m.dialect
  document : m'.document = m.document
  settled : m'.graph.Settled m'.dialect
  authored : ∀ k, (m'.graph.find? k).map Record.authored =
    if k = name then some r.authored else (m.graph.find? k).map Record.authored
  edited : ∀ k, k ∈ m'.edited.items ↔
    (k = name ∧ (m.graph.find? name).map Record.authored ≠ some r.authored) ∨ k ∈ m.edited.items

variable {m m' : Model} {name : Text} {e : Edit}

/-- A model is determined by what is authored in it and what is marked as edited. -/
theorem ext_authored (hdialect : m.dialect = m'.dialect) (hdocument : m.document = m'.document)
    (hsettled : m.graph.Settled m.dialect) (hsettled' : m'.graph.Settled m'.dialect)
    (hauthored : m.graph.SameAuthored m'.graph)
    (hedited : ∀ k, k ∈ m.edited.items ↔ k ∈ m'.edited.items) : m = m' := by
  obtain ⟨dialect, document, graph, edited⟩ := m
  obtain ⟨dialect', document', graph', edited'⟩ := m'
  obtain rfl : dialect = dialect' := hdialect
  obtain rfl : document = document' := hdocument
  obtain rfl : graph = graph' := hsettled.ext hsettled' hauthored
  obtain rfl : edited = edited' := Catalog.ext_items hedited
  rfl

/-- Any variable can be redefined, and what is there beside its definition does not matter. -/
theorem exists_edit (hm : m.graph.Settled m.dialect) {old r : Record}
    (hold : (m.graph.find? name).map Record.authored = some old.authored)
    (happly : e.apply m.dialect old = .ok r) :
    ∃ m', m.edit name e = .ok m' ∧ m.Redefines name r m' := by
  obtain ⟨current, hcurrent, hauthored⟩ := Option.map_eq_some_iff.1 hold
  obtain ⟨s, hs, hr⟩ := Edit.apply_congr hauthored happly
  have hname : s.name = name :=
    (Edit.name_of_apply hs).1.trans (Catalog.key_of_find? hcurrent)
  by_cases hlike : s.authored = current.authored
  · refine ⟨m, ?_, rfl, rfl, hm, fun k => ?_, fun k => ?_⟩
    · simp only [edit, hcurrent, hs, Record.authoredLike_iff.2 hlike, if_true]
    · split
      next heq => rw [heq, hcurrent, Option.map_some, ← hlike, hr]
      next => rfl
    · simp [hcurrent, ← hlike, hr]
  · have hgraph : ∃ graph, m.graph.redefine? s = some graph := by
      unfold Graph.redefine?
      rw [hname, hcurrent]
      exact ⟨_, rfl⟩
    obtain ⟨graph, hgraph⟩ := hgraph
    have hedit : m.edit name e = .ok { m with
        graph := graph.classified m.dialect, edited := m.edited.insert name } := by
      have hunlike : s.authoredLike current = false :=
        Bool.eq_false_iff.2 fun h => hlike (Record.authoredLike_iff.1 h)
      simp [edit, hcurrent, hs, hunlike, hgraph]
    refine ⟨_, hedit, rfl, rfl, (hm.linked.redefine? hgraph).settled_classified m.dialect,
      fun k => ?_, fun k => ?_⟩
    · rw [← hr]
      exact authored_redefined hcurrent hs hgraph k
    · have hne : current.authored ≠ r.authored := fun heq => hlike (hr.trans heq.symm)
      simp [Catalog.mem_insert, hcurrent, hne]

theorem redefines_of_edit (hm : m.graph.Settled m.dialect) (h : m.edit name e = .ok m') :
    ∃ old r, m.graph.find? name = some old ∧ e.apply m.dialect old = .ok r ∧
      m.Redefines name r m' := by
  obtain ⟨old, r, hold, happly, -⟩ := authored_of_edit h
  obtain ⟨m'', hm'', hr⟩ := exists_edit hm (congrArg (Option.map Record.authored) hold) happly
  obtain rfl := Except.ok.inj (h.symm.trans hm'')
  exact ⟨old, r, hold, happly, hr⟩

/-- Two edits make the same model in either order if the same is authored after both, and they mark
the same variables. -/
theorem Redefines.eq_of_twice {m₁ m₂ m₁₂ m₂₁ : Model} {name₁ name₂ : Text} {r₁ r₂ r₁₂ r₂₁ : Record}
    (h₁ : m.Redefines name₁ r₁ m₁) (h₁₂ : m₁.Redefines name₂ r₁₂ m₁₂)
    (h₂ : m.Redefines name₂ r₂ m₂) (h₂₁ : m₂.Redefines name₁ r₂₁ m₂₁)
    (hauthored : m₁₂.graph.SameAuthored m₂₁.graph)
    (hedited : ∀ k, k ∈ m₁₂.edited.items ↔ k ∈ m₂₁.edited.items) : m₁₂ = m₂₁ :=
  ext_authored
    (h₁₂.dialect.trans (h₁.dialect.trans (h₂₁.dialect.trans h₂.dialect).symm))
    (h₁₂.document.trans (h₁.document.trans (h₂₁.document.trans h₂.document).symm))
    h₁₂.settled h₂₁.settled hauthored hedited

section Twice

variable {m₁ m₂ : Model} {name₁ name₂ : Text} {e₁ e₂ : Edit}

theorem edit_comm_of_ne (hm : m.graph.Settled m.dialect) (hne : name₁ ≠ name₂)
    (h₁ : m.edit name₁ e₁ = .ok m₁) (h₂ : m.edit name₂ e₂ = .ok m₂) :
    ∃ both, m₁.edit name₂ e₂ = .ok both ∧ m₂.edit name₁ e₁ = .ok both := by
  obtain ⟨old₁, r₁, hold₁, happly₁, hr₁⟩ := redefines_of_edit hm h₁
  obtain ⟨old₂, r₂, hold₂, happly₂, hr₂⟩ := redefines_of_edit hm h₂
  -- Neither edit touches what the other starts from.
  have hold₁₂ : (m₁.graph.find? name₂).map Record.authored = some old₂.authored := by
    rw [hr₁.authored, if_neg (Ne.symm hne), hold₂, Option.map_some]
  have hold₂₁ : (m₂.graph.find? name₁).map Record.authored = some old₁.authored := by
    rw [hr₂.authored, if_neg hne, hold₁, Option.map_some]
  obtain ⟨m₁₂, hedit₁₂, hr₁₂⟩ := exists_edit hr₁.settled hold₁₂ (hr₁.dialect ▸ happly₂)
  obtain ⟨m₂₁, hedit₂₁, hr₂₁⟩ := exists_edit hr₂.settled hold₂₁ (hr₂.dialect ▸ happly₁)
  have heq : m₁₂ = m₂₁ := by
    refine hr₁.eq_of_twice hr₁₂ hr₂ hr₂₁ (fun k => ?_) fun k => ?_
    · rw [hr₁₂.authored, hr₁.authored, hr₂₁.authored, hr₂.authored]
      by_cases hk : k = name₁
      · simp [hk, hne]
      · simp [hk]
    · rw [hr₁₂.edited, hr₁.edited, hr₂₁.edited, hr₂.edited, hold₁₂, hold₁, hold₂₁, hold₂,
        Option.map_some, Option.map_some]
      exact or_left_comm
  exact ⟨m₁₂, hedit₁₂, heq ▸ hedit₂₁⟩

theorem edit_comm_of_disjoint (hm : m.graph.Settled m.dialect) (hdisjoint : e₁.Disjoint e₂)
    (h₁ : m.edit name e₁ = .ok m₁) (h₂ : m.edit name e₂ = .ok m₂) :
    ∃ both, m₁.edit name e₂ = .ok both ∧ m₂.edit name e₁ = .ok both := by
  obtain ⟨old, r₁, hold, happly₁, hr₁⟩ := redefines_of_edit hm h₁
  obtain ⟨old', r₂, hold', happly₂, hr₂⟩ := redefines_of_edit hm h₂
  obtain rfl := Option.some.inj (hold.symm.trans hold')
  obtain ⟨r, happly₁₂, happly₂₁⟩ := Edit.apply_comm hdisjoint happly₁ happly₂
  have hold₁₂ : (m₁.graph.find? name).map Record.authored = some r₁.authored := by
    rw [hr₁.authored, if_pos rfl]
  have hold₂₁ : (m₂.graph.find? name).map Record.authored = some r₂.authored := by
    rw [hr₂.authored, if_pos rfl]
  obtain ⟨m₁₂, hedit₁₂, hr₁₂⟩ := exists_edit hr₁.settled hold₁₂ (hr₁.dialect ▸ happly₁₂)
  obtain ⟨m₂₁, hedit₂₁, hr₂₁⟩ := exists_edit hr₂.settled hold₂₁ (hr₂.dialect ▸ happly₂₁)
  have hmarks := Edit.unchanged_comm happly₁ happly₂ happly₁₂ happly₂₁
  have heq : m₁₂ = m₂₁ := by
    refine hr₁.eq_of_twice hr₁₂ hr₂ hr₂₁ (fun k => ?_) fun k => ?_
    · rw [hr₁₂.authored, hr₁.authored, hr₂₁.authored, hr₂.authored]
      by_cases hk : k = name <;> simp [hk]
    · rw [hr₁₂.edited, hr₁.edited, hr₂₁.edited, hr₂.edited, hold₁₂, hold₂₁, hold,
        Option.map_some]
      simp only [ne_eq, Option.some.injEq]
      grind
  exact ⟨m₁₂, hedit₁₂, heq ▸ hedit₂₁⟩

end Twice

/-- Two edits of which each succeeds, and which are of different variables or give different texts
of one, succeed in either order and make the same model: the same graph, written as the same text. -/
theorem edits_commute {d : Dialect} {source : Text} {original m₁ m₂ : Model}
    (h : load d source = .ok original) (steps : List (Text × Edit)) {name₁ name₂ : Text}
    {e₁ e₂ : Edit} (h₁ : (original.after steps).edit name₁ e₁ = .ok m₁)
    (h₂ : (original.after steps).edit name₂ e₂ = .ok m₂)
    (hapart : name₁ ≠ name₂ ∨ e₁.Disjoint e₂) :
    ∃ both, m₁.edit name₂ e₂ = .ok both ∧ m₂.edit name₁ e₁ = .ok both := by
  have hm := ((evolved_of_load h).after steps).settled
  by_cases hne : name₁ = name₂
  · subst hne
    exact edit_comm_of_disjoint hm (hapart.resolve_left (absurd rfl)) h₁ h₂
  · exact edit_comm_of_ne hm hne h₁ h₂

/-- The level comes to depend on itself. -/
def recursiveLevel : Edit := ⟨some "INTEG(inflow - level, 10)".toList, none, none⟩

/-- The inflow comes to depend on the level and on a variable that is not there. -/
def delayedInflow : Edit := ⟨some "level / delay".toList, none, none⟩

def labelledLevel : Edit := ⟨none, some "litres".toList, some "of water".toList⟩

theorem tank_edits_commute : ∃ m m₁ m₂ m₃, load .standard tank = .ok m ∧
    m.edit "level".toList recursiveLevel = .ok m₁ ∧
    m.edit "inflow".toList delayedInflow = .ok m₂ ∧
    m.edit "level".toList labelledLevel = .ok m₃ ∧
    "level".toList ≠ "inflow".toList ∧ recursiveLevel.Disjoint labelledLevel ∧
    (∃ both, m₁.edit "inflow".toList delayedInflow = .ok both ∧
      m₂.edit "level".toList recursiveLevel = .ok both) ∧
    ∃ both, m₁.edit "level".toList labelledLevel = .ok both ∧
      m₃.edit "level".toList recursiveLevel = .ok both := by
  have hedits : ((load .standard tank).toOption.bind fun m =>
      (m.edit "level".toList recursiveLevel).toOption.bind fun m₁ =>
        (m.edit "inflow".toList delayedInflow).toOption.bind fun m₂ =>
          (m.edit "level".toList labelledLevel).toOption.map fun m₃ =>
            (m, m₁, m₂, m₃)).isSome = true := by
    decide +kernel
  obtain ⟨⟨m, m₁, m₂, m₃⟩, h⟩ := Option.isSome_iff_exists.1 hedits
  obtain ⟨m', hm, h⟩ := Option.bind_eq_some_iff.1 h
  obtain ⟨m₁', h₁, h⟩ := Option.bind_eq_some_iff.1 h
  obtain ⟨m₂', h₂, h⟩ := Option.bind_eq_some_iff.1 h
  obtain ⟨m₃', h₃, heq⟩ := Option.map_eq_some_iff.1 h
  obtain ⟨rfl, rfl, rfl, rfl⟩ := by simpa only [Prod.mk.injEq] using heq
  have hm := eq_ok_of_toOption hm
  have h₁ := eq_ok_of_toOption h₁
  have h₂ := eq_ok_of_toOption h₂
  have h₃ := eq_ok_of_toOption h₃
  have hne : "level".toList ≠ "inflow".toList := by decide
  have hdisjoint : recursiveLevel.Disjoint labelledLevel := by decide
  exact ⟨_, _, _, _, hm, h₁, h₂, h₃, hne, hdisjoint, edits_commute hm [] h₁ h₂ (.inl hne),
    edits_commute hm [] h₁ h₃ (.inr hdisjoint)⟩

end Model

end StockFlow
