import StockFlow.Text.Basic

/-! Finite collections listed in increasing order of a key, with at most one item for each key.
Since the order is part of the type, two catalogs with the same items are the same catalog, in
whatever order the items came in. -/
namespace StockFlow

variable {α κ : Type} [LT κ]

structure Catalog (key : α → κ) where
  items : List α
  increasing : items.Pairwise fun a b => key a < key b

namespace Catalog

variable {key : α → κ}

def empty : Catalog key := ⟨[], .nil⟩

def isEmpty (c : Catalog key) : Bool := c.items.isEmpty

def size (c : Catalog key) : Nat := c.items.length

/-- A catalog of other items with the same keys. -/
def map {β : Type} {key' : β → κ} (c : Catalog key) (f : α → β)
    (key_f : ∀ a, key' (f a) = key a) : Catalog key' :=
  ⟨c.items.map f, List.pairwise_map.2 (c.increasing.imp fun h => by simpa only [key_f] using h)⟩

section Lookup

variable [DecidableEq κ]

def find? (c : Catalog key) (k : κ) : Option α := c.items.find? fun a => key a = k

def contains (c : Catalog key) (k : κ) : Bool := c.items.any fun a => key a = k

def erase (c : Catalog key) (k : κ) : Catalog key :=
  ⟨c.items.filter fun a => key a ≠ k, c.increasing.filter _⟩

/-- Changes the item with key `k`, if there is one. -/
def adjust (c : Catalog key) (k : κ) (f : α → α) (key_f : ∀ a, key (f a) = key a) : Catalog key :=
  c.map (fun a => if key a = k then f a else a) fun a => by split <;> simp [key_f]

end Lookup

section Insert

variable [DecidableLT κ] [DecidableEq κ]

/-- Puts `a` in its place, instead of the item with the same key if there is one. -/
def place (key : α → κ) (a : α) : List α → List α
  | [] => [a]
  | b :: rest =>
    if key a < key b then a :: b :: rest
    else if key a = key b then a :: rest
    else b :: place key a rest

theorem mem_place {a x : α} {l : List α} (h : x ∈ place key a l) : x = a ∨ x ∈ l := by
  induction l with
  | nil => exact .inl (by simpa [place] using h)
  | cons b rest ih =>
    simp only [place] at h
    split at h
    · simpa using h
    · split at h
      · rcases List.mem_cons.1 h with h | h
        · exact .inl h
        · exact .inr (.tail _ h)
      · rcases List.mem_cons.1 h with h | h
        · exact .inr (h ▸ .head _)
        · exact (ih h).imp_right (.tail _)

theorem place_increasing [Std.Trichotomous (α := κ) (· < ·)]
    [Trans (α := κ) (β := κ) (γ := κ) (· < ·) (· < ·) (· < ·)] {a : α} {l : List α}
    (h : l.Pairwise fun a b => key a < key b) :
    (place key a l).Pairwise fun a b => key a < key b := by
  induction l with
  | nil => simp [place]
  | cons b rest ih =>
    obtain ⟨hb, hr⟩ := List.pairwise_cons.1 h
    simp only [place]
    split
    next hab =>
      refine .cons (fun x hx => ?_) h
      rcases List.mem_cons.1 hx with rfl | hx
      · exact hab
      · exact Trans.trans hab (hb x hx)
    next hab =>
      split
      next heq => exact .cons (fun x hx => heq ▸ hb x hx) hr
      next hne =>
        refine .cons (fun x hx => ?_) (ih hr)
        rcases mem_place hx with rfl | hx
        · exact Decidable.byContradiction fun hba =>
            hne (Std.Trichotomous.trichotomous (r := (· < ·)) _ _ hab hba)
        · exact hb x hx

variable [Std.Trichotomous (α := κ) (· < ·)]
  [Trans (α := κ) (β := κ) (γ := κ) (· < ·) (· < ·) (· < ·)]

def insert (a : α) (c : Catalog key) : Catalog key :=
  ⟨place key a c.items, place_increasing c.increasing⟩

def ofList (l : List α) : Catalog key := l.foldl (fun c a => c.insert a) empty

end Insert

end Catalog

/-- Texts are ordered by their characters, and lists of texts by their texts. -/
instance Text.lt_trichotomous : Std.Trichotomous (α := Text) (· < ·) := inferInstance

instance Text.list_lt_trichotomous : Std.Trichotomous (α := List Text) (· < ·) := inferInstance

/-- A set of names, listed in the order of their characters. -/
abbrev NameSet := Catalog (id : Text → Text)

end StockFlow
