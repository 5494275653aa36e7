import Mathlib.Data.List.Sort
import StockFlow.Catalog

/-! What is found in a catalog after each of its operations. The laws hold for every list of items;
that a catalog lists its items in order only adds that two catalogs in which the same is found are
the same. -/
namespace StockFlow.Catalog

variable {α κ : Type} [LT κ] [DecidableEq κ] {key : α → κ}

section Lookup

variable {c : Catalog key} {k : κ} {a : α}

theorem key_of_find? (h : c.find? k = some a) : key a = k := by
  have hp := List.find?_some h
  simpa using hp

theorem mem_of_find? (h : c.find? k = some a) : a ∈ c.items := List.mem_of_find?_eq_some h

theorem find?_eq_none : c.find? k = none ↔ ∀ a ∈ c.items, key a ≠ k := by
  simp [find?]

theorem contains_eq_isSome (c : Catalog key) (k : κ) : c.contains k = (c.find? k).isSome := by
  rw [contains, find?, Bool.eq_iff_iff]
  simp

omit [DecidableEq κ] in
@[simp] theorem items_empty : (empty : Catalog key).items = [] := rfl

@[simp] theorem find?_empty (k : κ) : (empty : Catalog key).find? k = none := rfl

theorem find?_map {β : Type} {key' : β → κ} (c : Catalog key) (f : α → β)
    (key_f : ∀ a, key' (f a) = key a) (k : κ) : (c.map f key_f).find? k = (c.find? k).map f := by
  simp only [find?, map, List.find?_map, Function.comp_def, key_f]

theorem find?_adjust (c : Catalog key) (k' : κ) (f : α → α) (key_f : ∀ a, key (f a) = key a)
    (k : κ) : (c.adjust k' f key_f).find? k =
      (c.find? k).map fun a => if k = k' then f a else a := by
  rw [adjust, find?_map]
  cases h : c.find? k with
  | none => rfl
  | some a => simp [key_of_find? h]

theorem mem_erase {x : α} : x ∈ (c.erase k).items ↔ x ∈ c.items ∧ key x ≠ k := by
  simp [erase]

variable [Std.Irrefl (α := κ) (· < ·)]

omit [DecidableEq κ] in
theorem nodup_keys (c : Catalog key) : (c.items.map key).Nodup := by
  refine List.pairwise_map.2 (c.increasing.imp fun hlt heq => ?_)
  rw [heq] at hlt
  exact Std.Irrefl.irrefl (r := (· < ·)) _ hlt

theorem find?_of_mem (h : a ∈ c.items) : c.find? (key a) = some a := by
  cases hf : c.find? (key a) with
  | none => exact absurd rfl (find?_eq_none.1 hf a h)
  | some b =>
    have hb := List.inj_on_of_nodup_map c.nodup_keys (mem_of_find? hf) h (key_of_find? hf)
    rw [hb]

theorem find?_eq_some : c.find? k = some a ↔ a ∈ c.items ∧ key a = k := by
  constructor
  · exact fun h => ⟨mem_of_find? h, key_of_find? h⟩
  · rintro ⟨h, rfl⟩
    exact find?_of_mem h

variable [Trans (α := κ) (β := κ) (γ := κ) (· < ·) (· < ·) (· < ·)]

omit [DecidableEq κ] in
/-- A catalog is determined by its items, in whatever order. -/
theorem ext_items {d : Catalog key} (h : ∀ a, a ∈ c.items ↔ a ∈ d.items) : c = d := by
  have hirrefl : Std.Irrefl fun a b : α => key a < key b :=
    ⟨fun a => Std.Irrefl.irrefl (r := (· < ·)) (key a)⟩
  have hanti : Std.Antisymm fun a b : α => key a < key b :=
    ⟨fun a b hab hba => absurd (Trans.trans hab hba) (Std.Irrefl.irrefl (r := (· < ·)) (key a))⟩
  obtain ⟨cs, hc⟩ := c
  obtain ⟨ds, hd⟩ := d
  obtain rfl : cs = ds := hc.eq_of_mem_iff hd h
  rfl

theorem ext_find? {d : Catalog key} (h : ∀ k, c.find? k = d.find? k) : c = d := by
  refine ext_items fun a => ?_
  constructor
  · exact fun ha => mem_of_find? ((h (key a)).symm.trans (find?_of_mem ha))
  · exact fun ha => mem_of_find? ((h (key a)).trans (find?_of_mem ha))

end Lookup

section Insert

variable [DecidableLT κ]

theorem find?_place (a : α) (l : List α) (k : κ) :
    (place key a l).find? (fun b => key b = k) =
      if key a = k then some a else l.find? fun b => key b = k := by
  induction l with
  | nil => by_cases h : key a = k <;> simp [place, h]
  | cons b rest ih =>
    rw [place]
    split
    · by_cases h : key a = k <;> simp [List.find?_cons, h]
    · split
      next heq => by_cases h : key b = k <;> simp [heq, h]
      next hne =>
        by_cases hb : key b = k
        · have ha : key a ≠ k := fun ha => hne (ha.trans hb.symm)
          simp [hb, ha]
        · simp [hb, ih]

variable [Std.Trichotomous (α := κ) (· < ·)]
  [Trans (α := κ) (β := κ) (γ := κ) (· < ·) (· < ·) (· < ·)]

theorem find?_insert (a : α) (c : Catalog key) (k : κ) :
    (c.insert a).find? k = if key a = k then some a else c.find? k :=
  find?_place a c.items k

end Insert

/-! ### Sets of names -/

section Names

variable {s t : NameSet} {x y : Text} {l : List Text}

theorem mem_iff_find? : x ∈ s.items ↔ s.find? x = some x := by
  rw [find?_eq_some]
  simp

theorem contains_name : s.contains x = true ↔ x ∈ s.items := by
  simp [contains]

theorem mem_insert : y ∈ (s.insert x).items ↔ y = x ∨ y ∈ s.items := by
  rw [mem_iff_find?, mem_iff_find?, find?_insert]
  by_cases h : y = x
  · subst h
    simp
  · simp [h, Ne.symm h]

theorem mem_foldl_insert : x ∈ (l.foldl (fun s y => s.insert y) s).items ↔ x ∈ l ∨ x ∈ s.items := by
  induction l generalizing s with
  | nil => simp
  | cons y l ih =>
    rw [List.foldl_cons, ih, mem_insert, List.mem_cons]
    tauto

theorem mem_ofList : x ∈ (ofList l : NameSet).items ↔ x ∈ l := by
  rw [ofList, mem_foldl_insert]
  simp

/-- Putting the names of a set together again gives the set. -/
theorem ofList_items (s : NameSet) : ofList s.items = s := ext_items fun _ => mem_ofList

theorem isEmpty_iff : s.isEmpty = true ↔ s = empty := by
  constructor
  · intro h
    refine ext_items fun x => ?_
    rw [isEmpty, List.isEmpty_iff] at h
    simp [h]
  · rintro rfl
    rfl

end Names

end StockFlow.Catalog
