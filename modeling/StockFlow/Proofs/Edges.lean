import StockFlow.Graph.Classification
import StockFlow.Proofs.Catalogs

/-! The edges of a graph. A graph is linked if its children and its dangling references are those of
the parents that its records list. Linking records from nothing gives a linked graph, and putting a
new definition in the place of an old one keeps it linked, though it touches only the edges that
start there. Linked graphs with the same authored records and roles are the same graph. -/
namespace StockFlow

/-- What is authored of a record. -/
def Record.authored (r : Record) : Record :=
  { r with children := Catalog.empty, role := .unclassified }

/-- A record without its children. -/
def Record.childless (r : Record) : Record := { r with children := Catalog.empty }

theorem Record.authoredLike_iff {r s : Record} : r.authoredLike s = true ↔ r.authored = s.authored := by
  have hitems : r.parents.items = s.parents.items ↔ r.parents = s.parents :=
    ⟨fun h => Catalog.ext_items fun _ => by rw [h], fun h => by rw [h]⟩
  obtain ⟨name, operator, equation, units, comment, parents, children, role⟩ := r
  obtain ⟨name', operator', equation', units', comment', parents', children', role'⟩ := s
  simp only [authoredLike, authored, Bool.and_eq_true, beq_iff_eq, Record.mk.injEq] at hitems ⊢
  rw [hitems]
  tauto

theorem Record.name_authored (r : Record) : r.authored.name = r.name := rfl

theorem Record.name_eq_of_authored {r s : Record} (h : r.authored = s.authored) :
    r.name = s.name := by
  have hname := congrArg Record.name h
  exact hname

theorem DanglingEdge.key_injective {e f : DanglingEdge} (h : e.key = f.key) : e = f := by
  obtain ⟨source, target⟩ := e
  obtain ⟨source', target'⟩ := f
  simpa [key] using h

theorem Catalog.mem_insert_dangling {c : Catalog DanglingEdge.key} {e f : DanglingEdge} :
    f ∈ (c.insert e).items ↔ f = e ∨ f ∈ c.items := by
  have hfind (c : Catalog DanglingEdge.key) : f ∈ c.items ↔ c.find? f.key = some f := by
    rw [find?_eq_some]
    simp
  rw [hfind, hfind, find?_insert]
  by_cases h : e.key = f.key
  · obtain rfl := DanglingEdge.key_injective h
    simp
  · have hne : f ≠ e := fun heq => h (heq ▸ rfl)
    simp [h, hne]

namespace Graph

/-- The name `p` is among the parents of the record with the name `c`. -/
def Edge (g : Graph) (c p : Text) : Prop := ∃ r, g.find? c = some r ∧ p ∈ r.parents.items

/-- The children and the dangling references of the graph are those of the edges, each from a child
to a parent. -/
structure Tracks (g : Graph) (edge : Text → Text → Prop) : Prop where
  children : ∀ {k r}, g.find? k = some r → ∀ c, c ∈ r.children.items ↔ edge c k
  dangling : ∀ e, e ∈ g.dangling.items ↔ edge e.source e.target ∧ g.find? e.target = none

def Linked (g : Graph) : Prop := Tracks g g.Edge

theorem Tracks.congr {g : Graph} {edge edge' : Text → Text → Prop} (h : Tracks g edge)
    (he : ∀ c p, edge c p ↔ edge' c p) : Tracks g edge' :=
  ⟨fun hf c => (h.children hf c).trans (he _ _), fun e => by rw [h.dangling, he]⟩

/-! ### One edge -/

section Step

variable {g : Graph} {child parent : Text} {edge : Text → Text → Prop}

theorem contains_eq_isSome (g : Graph) (k : Text) : g.contains k = (g.find? k).isSome :=
  Catalog.contains_eq_isSome g.records k

/-- Changing the children of the parent, if there is one, is a change of that record alone. -/
theorem find?_adjusted (g : Graph) (parent : Text) (f : NameSet → NameSet)
    (dangling : Catalog DanglingEdge.key) (k : Text) :
    find? (if g.contains parent then
        { g with
          records := g.records.adjust parent
            (fun r => { r with children := f r.children }) fun _ => rfl }
      else { g with dangling := dangling }) k =
      (g.find? k).map fun r => if k = parent then { r with children := f r.children } else r := by
  split
  · exact Catalog.find?_adjust g.records parent (fun r => { r with children := f r.children })
      (fun _ => rfl) k
  next hc =>
    have hfind : find? { g with dangling := dangling } k = g.find? k := rfl
    rw [hfind]
    cases hk : g.find? k with
    | none => rfl
    | some r =>
      have hne : k ≠ parent := by
        rintro rfl
        rw [contains_eq_isSome, hk] at hc
        simp at hc
      simp [hne]

theorem find?_connect (child : Text) (g : Graph) (parent k : Text) :
    (g.connect child parent).find? k = (g.find? k).map fun r =>
      if k = parent then { r with children := r.children.insert child } else r :=
  find?_adjusted g parent (fun s => s.insert child) _ k

theorem find?_disconnect (child : Text) (g : Graph) (parent k : Text) :
    (g.disconnect child parent).find? k = (g.find? k).map fun r =>
      if k = parent then { r with children := r.children.erase child } else r :=
  find?_adjusted g parent (fun s => s.erase child) _ k

theorem find?_connect_eq_none (child parent k : Text) :
    (g.connect child parent).find? k = none ↔ g.find? k = none := by
  rw [find?_connect, Option.map_eq_none_iff]

theorem find?_disconnect_eq_none (child parent k : Text) :
    (g.disconnect child parent).find? k = none ↔ g.find? k = none := by
  rw [find?_disconnect, Option.map_eq_none_iff]

theorem childless_connect (child parent k : Text) :
    ((g.connect child parent).find? k).map Record.childless =
      (g.find? k).map Record.childless := by
  rw [find?_connect, Option.map_map]
  congr 1
  funext r
  by_cases h : k = parent <;> simp [h, Record.childless]

theorem childless_disconnect (child parent k : Text) :
    ((g.disconnect child parent).find? k).map Record.childless =
      (g.find? k).map Record.childless := by
  rw [find?_disconnect, Option.map_map]
  congr 1
  funext r
  by_cases h : k = parent <;> simp [h, Record.childless]

theorem mem_dangling_connect (e : DanglingEdge) :
    e ∈ (g.connect child parent).dangling.items ↔
      (e = ⟨child, parent⟩ ∧ g.find? parent = none) ∨ e ∈ g.dangling.items := by
  unfold connect
  split
  next hc =>
    rw [contains_eq_isSome, Option.isSome_iff_ne_none] at hc
    simp [hc]
  next hc =>
    rw [contains_eq_isSome, Option.not_isSome_iff_eq_none] at hc
    simp [hc, Catalog.mem_insert_dangling]

theorem mem_dangling_disconnect (e : DanglingEdge) :
    e ∈ (g.disconnect child parent).dangling.items ↔
      e ∈ g.dangling.items ∧ ¬ (e = ⟨child, parent⟩ ∧ g.find? parent = none) := by
  unfold disconnect
  split
  next hc =>
    rw [contains_eq_isSome, Option.isSome_iff_ne_none] at hc
    simp [hc]
  next hc =>
    rw [contains_eq_isSome, Option.not_isSome_iff_eq_none] at hc
    have hkey : DanglingEdge.key e = [child, parent] ↔ e = ⟨child, parent⟩ := by
      obtain ⟨source, target⟩ := e
      simp [DanglingEdge.key]
    simp [hc, Catalog.mem_erase, hkey]

theorem Tracks.connect (h : Tracks g edge) (child parent : Text) :
    Tracks (g.connect child parent) fun c p => (c = child ∧ p = parent) ∨ edge c p := by
  constructor
  · intro k r hr c
    rw [find?_connect] at hr
    obtain ⟨r', hr', rfl⟩ := Option.map_eq_some_iff.1 hr
    by_cases hk : k = parent
    · simp [hk, Catalog.mem_insert, h.children (hk ▸ hr')]
    · simp [hk, h.children hr']
  · intro e
    rw [mem_dangling_connect, h.dangling, find?_connect_eq_none]
    obtain ⟨source, target⟩ := e
    constructor
    · rintro (⟨heq, hn⟩ | ⟨he, hn⟩)
      · obtain ⟨rfl, rfl⟩ := by simpa using heq
        exact ⟨.inl ⟨rfl, rfl⟩, hn⟩
      · exact ⟨.inr he, hn⟩
    · rintro ⟨⟨rfl, rfl⟩ | he, hn⟩
      · exact .inl ⟨rfl, hn⟩
      · exact .inr ⟨he, hn⟩

theorem Tracks.disconnect (h : Tracks g edge) (child parent : Text) :
    Tracks (g.disconnect child parent) fun c p => edge c p ∧ ¬ (c = child ∧ p = parent) := by
  constructor
  · intro k r hr c
    rw [find?_disconnect] at hr
    obtain ⟨r', hr', rfl⟩ := Option.map_eq_some_iff.1 hr
    by_cases hk : k = parent
    · simp [hk, Catalog.mem_erase, h.children (hk ▸ hr')]
    · simp [hk, h.children hr']
  · intro e
    rw [mem_dangling_disconnect, h.dangling, find?_disconnect_eq_none]
    obtain ⟨source, target⟩ := e
    constructor
    · rintro ⟨⟨he, hn⟩, hne⟩
      refine ⟨⟨he, ?_⟩, hn⟩
      rintro ⟨rfl, rfl⟩
      exact hne ⟨rfl, hn⟩
    · rintro ⟨⟨he, hne⟩, hn⟩
      refine ⟨⟨he, hn⟩, ?_⟩
      rintro ⟨heq, -⟩
      obtain ⟨rfl, rfl⟩ := by simpa using heq
      exact hne ⟨rfl, rfl⟩

end Step

/-! ### All edges of a record -/

section Steps

variable {g : Graph} {child : Text} {parents : List Text} {edge : Text → Text → Prop}

theorem Tracks.foldl_connect (h : Tracks g edge) (child : Text) (parents : List Text) :
    Tracks (parents.foldl (Graph.connect child) g) fun c p =>
      (c = child ∧ p ∈ parents) ∨ edge c p := by
  induction parents generalizing g edge with
  | nil => exact h.congr fun c p => by simp
  | cons parent parents ih =>
    refine (ih (h.connect child parent)).congr fun c p => ?_
    simp only [List.mem_cons]
    tauto

theorem Tracks.foldl_disconnect (h : Tracks g edge) (child : Text) (parents : List Text) :
    Tracks (parents.foldl (Graph.disconnect child) g) fun c p =>
      edge c p ∧ ¬ (c = child ∧ p ∈ parents) := by
  induction parents generalizing g edge with
  | nil => exact h.congr fun c p => by simp
  | cons parent parents ih =>
    refine (ih (h.disconnect child parent)).congr fun c p => ?_
    simp only [List.mem_cons]
    tauto

theorem childless_foldl_connect (k : Text) :
    ((parents.foldl (connect child) g).find? k).map Record.childless =
      (g.find? k).map Record.childless := by
  induction parents generalizing g with
  | nil => rfl
  | cons parent parents ih => rw [List.foldl_cons, ih, childless_connect]

theorem childless_foldl_disconnect (k : Text) :
    ((parents.foldl (disconnect child) g).find? k).map Record.childless =
      (g.find? k).map Record.childless := by
  induction parents generalizing g with
  | nil => rfl
  | cons parent parents ih => rw [List.foldl_cons, ih, childless_disconnect]

end Steps

theorem edge_iff {g : Graph} {c p : Text} :
    g.Edge c p ↔ ∃ parents, g.parents? c = some parents ∧ p ∈ parents.items := by
  simp [Edge, parents?]

theorem parents?_eq (g : Graph) (k : Text) :
    g.parents? k = ((g.find? k).map Record.childless).map Record.parents := by
  rw [Option.map_map]
  rfl

theorem edge_congr {g g' : Graph}
    (h : ∀ k, (g.find? k).map Record.childless = (g'.find? k).map Record.childless) (c p : Text) :
    g.Edge c p ↔ g'.Edge c p := by
  rw [edge_iff, edge_iff, parents?_eq, h, ← parents?_eq]

/-- A linked graph is determined by its records without their children. -/
theorem Linked.ext {g g' : Graph} (h : g.Linked) (h' : g'.Linked)
    (hr : ∀ k, (g.find? k).map Record.childless = (g'.find? k).map Record.childless) : g = g' := by
  have hnone (k : Text) : g.find? k = none ↔ g'.find? k = none := by
    rw [← Option.map_eq_none_iff (f := Record.childless), hr, Option.map_eq_none_iff]
  have hrecords : g.records = g'.records := by
    refine Catalog.ext_find? fun k => ?_
    have hk := hr k
    change g.find? k = g'.find? k
    cases hf : g.find? k with
    | none => exact ((hnone k).1 hf).symm
    | some r =>
      rw [hf] at hk
      obtain ⟨r', hr', heq⟩ := Option.map_eq_some_iff.1 hk.symm
      have hchildren : r.children = r'.children := by
        refine Catalog.ext_items fun c => ?_
        rw [h.children hf, h'.children hr', edge_congr hr]
      rw [hr']
      obtain ⟨name, operator, equation, units, comment, parents, children, role⟩ := r
      obtain ⟨name', operator', equation', units', comment', parents', children', role'⟩ := r'
      simp only [Record.childless, Record.mk.injEq] at heq hchildren
      simp [heq, hchildren]
  have hdangling : g.dangling = g'.dangling := by
    refine Catalog.ext_items fun e => ?_
    rw [h.dangling, h'.dangling, edge_congr hr, hnone]
  obtain ⟨records, dangling⟩ := g
  obtain ⟨records', dangling'⟩ := g'
  obtain rfl : records = records' := hrecords
  obtain rfl : dangling = dangling' := hdangling
  rfl

/-! ### Linking and redefining -/

/-- The records before any edge is added. -/
def unlinked (records : Catalog Record.name) : Graph :=
  ⟨records.map Record.childless fun _ => rfl, Catalog.empty⟩

def connectAll (records : List Record) (g : Graph) : Graph :=
  records.foldl (fun g r => r.parents.items.foldl (connect r.name) g) g

theorem link_eq (records : Catalog Record.name) :
    link records = connectAll (unlinked records).records.items (unlinked records) := rfl

theorem find?_unlinked (records : Catalog Record.name) (k : Text) :
    (unlinked records).find? k = (records.find? k).map Record.childless :=
  Catalog.find?_map records Record.childless (fun _ => rfl) k

theorem tracks_unlinked (records : Catalog Record.name) :
    Tracks (unlinked records) fun _ _ => False := by
  refine ⟨fun hf c => ?_, fun e => by simp [unlinked]⟩
  rw [find?_unlinked] at hf
  obtain ⟨r, -, rfl⟩ := Option.map_eq_some_iff.1 hf
  simp [Record.childless]

theorem Tracks.connectAll {g : Graph} {edge : Text → Text → Prop} (h : Tracks g edge)
    (records : List Record) : Tracks (connectAll records g) fun c p =>
      (∃ r ∈ records, r.name = c ∧ p ∈ r.parents.items) ∨ edge c p := by
  induction records generalizing g edge with
  | nil => exact h.congr fun c p => by simp
  | cons r records ih =>
    refine (ih (h.foldl_connect r.name r.parents.items)).congr fun c p => ?_
    have hcons : (∃ s ∈ r :: records, s.name = c ∧ p ∈ s.parents.items) ↔
        (c = r.name ∧ p ∈ r.parents.items) ∨ ∃ s ∈ records, s.name = c ∧ p ∈ s.parents.items := by
      rw [List.exists_mem_cons_iff, eq_comm]
    rw [hcons, or_assoc]
    exact or_left_comm

theorem childless_connectAll (records : List Record) (g : Graph) (k : Text) :
    ((connectAll records g).find? k).map Record.childless =
      (g.find? k).map Record.childless := by
  induction records generalizing g with
  | nil => rfl
  | cons r records ih =>
    have hcons : connectAll (r :: records) g =
        connectAll records (r.parents.items.foldl (connect r.name) g) := rfl
    rw [hcons, ih, childless_foldl_connect]

theorem childless_link (records : Catalog Record.name) (k : Text) :
    ((link records).find? k).map Record.childless = (records.find? k).map Record.childless := by
  rw [link_eq, childless_connectAll, find?_unlinked, Option.map_map]
  rfl

theorem linked_link (records : Catalog Record.name) : (link records).Linked := by
  refine ((tracks_unlinked records).connectAll _).congr fun c p => ?_
  have hedge : (link records).Edge c p ↔ (unlinked records).Edge c p := by
    refine edge_congr (fun k => ?_) c p
    rw [link_eq, childless_connectAll]
  rw [hedge, or_false]
  constructor
  · rintro ⟨r, hr, rfl, hp⟩
    exact ⟨r, Catalog.find?_of_mem hr, hp⟩
  · rintro ⟨r, hr, hp⟩
    exact ⟨r, Catalog.mem_of_find? hr, Catalog.key_of_find? hr, hp⟩

/-- The graph with a record in the place of the old one with its name, its edges not yet changed. -/
def swap (g : Graph) (old r : Record) : Graph :=
  { g with records := g.records.insert { r with children := old.children, role := old.role } }

theorem find?_swap (g : Graph) (old r : Record) (k : Text) : (swap g old r).find? k =
    if r.name = k then some { r with children := old.children, role := old.role }
    else g.find? k :=
  Catalog.find?_insert _ _ _

theorem redefine?_eq_some {g g' : Graph} {r : Record} (h : g.redefine? r = some g') :
    ∃ old, g.find? r.name = some old ∧ g' = r.parents.items.foldl (connect r.name)
      (old.parents.items.foldl (disconnect r.name) (swap g old r)) := by
  unfold redefine? at h
  split at h
  · simp at h
  next old hold => exact ⟨old, hold, (Option.some.inj h).symm⟩

/-- What is in the graph once a record has been put in the place of the one with its name. -/
theorem childless_redefine? {g g' : Graph} {r : Record} (h : g.redefine? r = some g') :
    ∃ old, g.find? r.name = some old ∧ ∀ k, (g'.find? k).map Record.childless =
      if r.name = k then some { r with children := Catalog.empty, role := old.role }
      else (g.find? k).map Record.childless := by
  obtain ⟨old, hold, rfl⟩ := redefine?_eq_some h
  refine ⟨old, hold, fun k => ?_⟩
  rw [childless_foldl_connect, childless_foldl_disconnect, find?_swap]
  split <;> rfl

/-- The edges that start at the redefined record are its own; all others are as before. -/
theorem edge_redefine? {g g' : Graph} {r : Record} (h : g.redefine? r = some g') (c p : Text) :
    g'.Edge c p ↔ (c = r.name ∧ p ∈ r.parents.items) ∨ (c ≠ r.name ∧ g.Edge c p) := by
  obtain ⟨old, -, hfind⟩ := childless_redefine? h
  rw [edge_iff, parents?_eq, hfind]
  by_cases hc : c = r.name
  · rw [if_pos hc.symm]
    simp [hc]
  · rw [if_neg (Ne.symm hc), ← parents?_eq, ← edge_iff]
    simp [hc]

/-- The record that is put in takes over the children of the old one, so only edges that start there
are wrong. -/
theorem Linked.tracks_swap {g : Graph} {old r : Record} (h : g.Linked)
    (hold : g.find? r.name = some old) : Tracks (swap g old r) g.Edge := by
  refine ⟨fun {k s} hk c => ?_, fun e => ?_⟩
  · rw [find?_swap] at hk
    split at hk
    next heq =>
      obtain rfl := Option.some.inj hk
      have hk' : g.find? k = some old := heq ▸ hold
      exact h.children hk' c
    next => exact h.children hk c
  · have hd : e ∈ (swap g old r).dangling.items ↔ e ∈ g.dangling.items := Iff.rfl
    rw [hd, h.dangling, find?_swap]
    split
    next heq => simp [← heq, hold]
    next => rfl

theorem Linked.redefine? {g g' : Graph} {r : Record} (h : g.Linked)
    (hg : g.redefine? r = some g') : g'.Linked := by
  have hedge := edge_redefine? hg
  obtain ⟨old, hold, rfl⟩ := redefine?_eq_some hg
  refine (((h.tracks_swap hold).foldl_disconnect r.name old.parents.items).foldl_connect r.name
    r.parents.items).congr fun c p => ?_
  rw [hedge]
  refine or_congr_right ?_
  by_cases hc : c = r.name
  · have hold' : g.Edge c p → p ∈ old.parents.items := by
      rintro ⟨s, hs, hp⟩
      rw [hc, hold] at hs
      rwa [Option.some.inj hs]
    simp only [hc, true_and, ne_eq, not_true_eq_false, false_and, iff_false, not_and, not_not]
    exact hc ▸ hold'
  · simp [hc]

end Graph

end StockFlow
