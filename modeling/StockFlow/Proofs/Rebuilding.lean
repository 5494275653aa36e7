import StockFlow.Proofs.Edges

/-! A graph that is settled, linked and with the roles that classification gives it, is the graph
that its authored records would give if they were put together anew. -/
namespace StockFlow.Graph

variable {d : Dialect} {g g' : Graph} {k : Text}

/-- The same definitions under the same names. -/
def SameAuthored (g g' : Graph) : Prop :=
  ∀ k, (g.find? k).map Record.authored = (g'.find? k).map Record.authored

/-! ### Roles -/

/-- The records as they are authored. -/
def authoredRecords (g : Graph) : Catalog Record.name :=
  g.records.map Record.authored Record.name_authored

theorem find?_authoredRecords (g : Graph) (k : Text) :
    g.authoredRecords.find? k = (g.find? k).map Record.authored :=
  Catalog.find?_map g.records Record.authored Record.name_authored k

theorem authoredRecords_congr (h : SameAuthored g g') : g.authoredRecords = g'.authoredRecords := by
  refine Catalog.ext_find? fun k => ?_
  rw [find?_authoredRecords, find?_authoredRecords, h k]

/-- What the net flows of all stocks refer to. -/
def allInflows (d : Dialect) (records : List Record) : List Text :=
  (records.filter fun r => d.callsStock r.equation).flatMap (inflows d)

def roleOf (d : Dialect) (flows : List Text) (r : Record) : Role :=
  if d.callsStock r.equation then .stock
  else if flows.contains r.name then .flow
  else if !r.parents.isEmpty then .auxiliary
  else .constant

theorem roleOf_ne_unclassified (d : Dialect) (flows : List Text) (r : Record) :
    roleOf d flows r ≠ .unclassified := by
  unfold roleOf
  split
  · simp
  · split
    · simp
    · split <;> simp

def roleEntry (d : Dialect) (flows : List Text) (r : Record) : Text × Role :=
  (r.name, roleOf d flows r)

theorem fst_roleEntry (d : Dialect) (flows : List Text) (r : Record) :
    (roleEntry d flows r).1 = r.name := rfl

theorem roles_eq (d : Dialect) (g : Graph) : g.roles d =
    g.records.map (roleEntry d (allInflows d g.records.items)) (fst_roleEntry d _) := rfl

theorem allInflows_map_authored (d : Dialect) (records : List Record) :
    allInflows d (records.map Record.authored) = allInflows d records := by
  rw [allInflows, List.filter_map, List.flatMap_map]
  rfl

/-- Roles are read off what is authored. -/
theorem find?_roles (d : Dialect) (g : Graph) (k : Text) : (g.roles d).find? k =
    (g.authoredRecords.find? k).map (roleEntry d (allInflows d g.authoredRecords.items)) := by
  have hitems : g.authoredRecords.items = g.records.items.map Record.authored := rfl
  rw [roles_eq, Catalog.find?_map, find?_authoredRecords, Option.map_map, hitems,
    allInflows_map_authored]
  rfl

theorem roles_congr (h : SameAuthored g g') : g.roles d = g'.roles d := by
  refine Catalog.ext_find? fun k => ?_
  rw [find?_roles, find?_roles, authoredRecords_congr h]

/-- The record with the role that the table gives to its name. -/
def withRole (roles : RoleTable) (r : Record) : Record := { r with role := roles.role r.name }

theorem find?_classified (d : Dialect) (g : Graph) (k : Text) :
    (g.classified d).find? k = (g.find? k).map (withRole (g.roles d)) :=
  Catalog.find?_map g.records (withRole (g.roles d)) (fun _ => rfl) k

theorem sameAuthored_classified (d : Dialect) (g : Graph) : SameAuthored (g.classified d) g := by
  intro k
  rw [find?_classified, Option.map_map]
  rfl

theorem classified_classified (d : Dialect) (g : Graph) :
    (g.classified d).classified d = g.classified d := by
  have hroles : (g.classified d).roles d = g.roles d := roles_congr (sameAuthored_classified d g)
  have hrecords : ((g.classified d).classified d).records = (g.classified d).records := by
    refine Catalog.ext_find? fun k => ?_
    change ((g.classified d).classified d).find? k = (g.classified d).find? k
    rw [find?_classified, find?_classified, Option.map_map, hroles]
    rfl
  have hdangling : ((g.classified d).classified d).dangling = (g.classified d).dangling := rfl
  generalize (g.classified d).classified d = left at *
  obtain ⟨records, dangling⟩ := left
  obtain rfl : records = (g.classified d).records := hrecords
  obtain rfl : dangling = (g.classified d).dangling := hdangling
  rfl

/-- The role of a record in a classified graph is the one that its records give it. -/
theorem role_of_classified {r : Record} (h : (g.classified d).find? k = some r) :
    r.role = roleOf d (allInflows d (g.classified d).records.items) r := by
  rw [find?_classified] at h
  obtain ⟨s, hs, rfl⟩ := Option.map_eq_some_iff.1 h
  have hname : s.name = k := Catalog.key_of_find? hs
  have hflows : allInflows d (g.classified d).records.items =
      allInflows d g.authoredRecords.items := by
    rw [← allInflows_map_authored, authoredRecords]
    congr 1
    exact (List.map_map ..)
  have hrole : (g.roles d).find? s.name =
      some (roleEntry d (allInflows d g.authoredRecords.items) s.authored) := by
    rw [find?_roles, find?_authoredRecords, hname, hs]
    rfl
  rw [hflows, withRole, RoleTable.role, hrole]
  rfl

theorem role_ne_unclassified {r : Record} (h : (g.classified d).find? k = some r) :
    r.role ≠ .unclassified := by
  rw [role_of_classified h]
  exact roleOf_ne_unclassified d _ _

/-! ### Settled graphs -/

theorem Linked.classified (h : g.Linked) (d : Dialect) : (g.classified d).Linked := by
  have hnone (k : Text) : (g.classified d).find? k = none ↔ g.find? k = none := by
    rw [find?_classified, Option.map_eq_none_iff]
  have hedge (c p : Text) : g.Edge c p ↔ (g.classified d).Edge c p := by
    unfold Edge
    rw [find?_classified]
    simp only [Option.map_eq_some_iff]
    constructor
    · rintro ⟨r, hr, hp⟩
      exact ⟨_, ⟨r, hr, rfl⟩, hp⟩
    · rintro ⟨_, ⟨r, hr, rfl⟩, hp⟩
      exact ⟨r, hr, hp⟩
  constructor
  · intro k r hr c
    rw [find?_classified] at hr
    obtain ⟨s, hs, rfl⟩ := Option.map_eq_some_iff.1 hr
    exact (h.children hs c).trans (hedge c k)
  · intro e
    rw [hnone, ← hedge]
    exact h.dangling e

/-- Linked, and with the roles that classification gives. -/
structure Settled (d : Dialect) (g : Graph) : Prop where
  linked : g.Linked
  roles : g.classified d = g

theorem Linked.settled_classified (h : g.Linked) (d : Dialect) : Settled d (g.classified d) :=
  ⟨h.classified d, classified_classified d g⟩

/-- A settled graph is determined by what is authored in it. -/
theorem Settled.ext (h : Settled d g) (h' : Settled d g') (hs : SameAuthored g g') : g = g' := by
  refine h.linked.ext h'.linked fun k => ?_
  have hchildless {g : Graph} (h : Settled d g) : (g.find? k).map Record.childless =
      ((g.find? k).map Record.authored).map (withRole (g.roles d)) := by
    conv_lhs => rw [← h.roles, find?_classified, Option.map_map]
    rw [Option.map_map]
    rfl
  rw [hchildless h, hchildless h', hs k, roles_congr hs]

/-! ### Putting records together -/

namespace Builder

/-- A record is refused, or its name was free and it is taken. -/
theorem add?_cases (b : Builder) (r : Record) :
    (b.add? r = none ∧ (b.records.find? r.name).isSome = true) ∨
      (b.add? r = some ⟨b.records.insert r⟩ ∧ b.records.find? r.name = none) := by
  rw [add?, Catalog.contains_eq_isSome]
  cases b.records.find? r.name <;> simp

/-- The first of several records with one name stays. -/
theorem find?_addAll (b : Builder) (records : List Record) (k : Text) :
    (b.addAll records).1.records.find? k =
      (b.records.find? k).or (records.find? fun r => r.name = k) := by
  induction records generalizing b with
  | nil => simp [addAll]
  | cons r records ih =>
    rcases b.add?_cases r with ⟨hadd, hold⟩ | ⟨hadd, hnew⟩
    · simp only [addAll, hadd, ih]
      by_cases hk : r.name = k
      · obtain ⟨s, hs⟩ := Option.isSome_iff_exists.1 (hk ▸ hold)
        simp [hs]
      · simp [hk]
    · simp only [addAll, hadd, ih, Catalog.find?_insert]
      by_cases hk : r.name = k
      · simp [hk, show b.records.find? k = none from hk ▸ hnew]
      · simp [hk]

/-- A record is refused if the builder had its name, or one of those added before it has. -/
theorem getElem?_addAll (b : Builder) (records : List Record) (i : Nat) :
    (b.addAll records).2[i]? = records[i]?.map fun r =>
      if (b.records.find? r.name).isSome = true ∨ r.name ∈ (records.take i).map Record.name then some r
      else none := by
  induction records generalizing b i with
  | nil => simp [addAll]
  | cons r records ih =>
    rcases b.add?_cases r with ⟨hadd, hold⟩ | ⟨hadd, hnew⟩
    · cases i with
      | zero => simp [addAll, hadd, hold]
      | succ i =>
        have htaken (s : Record) : s.name = r.name → (b.records.find? s.name).isSome = true :=
          fun h => h ▸ hold
        simp only [addAll, hadd, List.getElem?_cons_succ, ih, List.take_succ_cons, List.map_cons,
          List.mem_cons]
        congr! 3 with s
        have := htaken s
        tauto
    · cases i with
      | zero => simp [addAll, hadd, hnew]
      | succ i =>
        simp only [addAll, hadd, List.getElem?_cons_succ, ih, List.take_succ_cons, List.map_cons,
          List.mem_cons, Catalog.find?_insert]
        congr! 3 with s
        by_cases h : r.name = s.name
        · simp [h]
        · simp [h, Ne.symm h]

end Builder

theorem linked_ofRecords (records : List Record) : (ofRecords records).Linked := linked_link _

theorem childless_ofRecords (records : List Record) (k : Text) :
    ((ofRecords records).find? k).map Record.childless =
      (records.find? fun r => r.name = k).map Record.childless := by
  rw [ofRecords, Builder.build, childless_link, Builder.find?_addAll]
  rfl

theorem authored_ofRecords (records : List Record) (k : Text) :
    ((ofRecords records).find? k).map Record.authored =
      (records.find? fun r => r.name = k).map Record.authored := by
  have hk := congrArg (Option.map Record.authored) (childless_ofRecords records k)
  rw [Option.map_map, Option.map_map] at hk
  exact hk

/-- What is authored in the graph of some records, with roles given to them. -/
theorem authored_rebuilt (d : Dialect) (records : List Record) (k : Text) :
    (((ofRecords records).classified d).find? k).map Record.authored =
      (records.find? fun r => r.name = k).map Record.authored :=
  (sameAuthored_classified d _ k).trans (authored_ofRecords records k)

theorem exists_of_rebuilt {records : List Record} {r : Record}
    (h : ((ofRecords records).classified d).find? k = some r) :
    ∃ s ∈ records, s.authored = r.authored := by
  have hk := authored_rebuilt d records k
  rw [h] at hk
  obtain ⟨s, hs, heq⟩ := Option.map_eq_some_iff.1 hk.symm
  exact ⟨s, List.mem_of_find?_eq_some hs, heq⟩

/-- A settled graph is what its authored records give when they are put together from nothing. -/
theorem Settled.eq_rebuilt (h : Settled d g) {records : List Record}
    (hr : ∀ k, (records.find? fun r => r.name = k).map Record.authored =
      (g.find? k).map Record.authored) : g = (ofRecords records).classified d := by
  refine h.ext ((linked_ofRecords records).settled_classified d) fun k => ?_
  rw [authored_rebuilt, hr]

end StockFlow.Graph
