import StockFlow.Engine.Attribute
import StockFlow.Proofs.Names
import StockFlow.Proofs.Utf8

/-! The bytes of an answer, whatever they are. An answer cut at its zero bytes and then read is the
answer read whole and cut at the zero characters. A list of texts comes back as it was written,
however many zero bytes stand between them. -/
namespace StockFlow.Text

theorem isEmpty_ofBytes (bytes : List UInt8) : (ofBytes bytes).isEmpty = bytes.isEmpty := by
  rw [Bool.eq_iff_iff, List.isEmpty_iff, List.isEmpty_iff]
  exact (lossy_ofBytes bytes).eq_nil_iff

theorem ofBytes_intercalate (pieces : List (List UInt8)) :
    ofBytes (List.intercalate [0] pieces) = List.intercalate ['\x00'] (pieces.map ofBytes) := by
  induction pieces with
  | nil => rfl
  | cons piece pieces ih =>
    cases pieces with
    | nil => simp
    | cons next pieces =>
      rw [List.intercalate_cons_cons, List.append_assoc, List.map_cons, List.map_cons,
        List.intercalate_cons_cons, List.append_assoc, ← List.map_cons, ← ih]
      exact ofBytes_append_zero piece _

/-- Cutting at the zero bytes and reading each piece is reading first and cutting then. -/
theorem split_ofBytes (bytes : List UInt8) :
    split (· == '\x00') (ofBytes bytes) = (split (· == 0) bytes).map ofBytes := by
  have hpieces : ∀ t ∈ (split (· == 0) bytes).map ofBytes, '\x00' ∉ t := by
    intro t ht
    obtain ⟨piece, hpiece, rfl⟩ := List.mem_map.1 ht
    exact (lossy_ofBytes piece).not_mem fun hz => by
      simpa using (mem_of_mem_split hpiece hz).2
  have hbytes : List.intercalate [0] (split (· == 0) bytes) = bytes := by
    rw [split_eq_splitOnP]
    exact List.intercalate_splitOn 0
  rw [← split_intercalate hpieces (by simp [split]), ← ofBytes_intercalate, hbytes]

theorem head?_split {α : Type} (p : α → Bool) (t : List α) :
    (split p t).head? = some (t.takeWhile (!p ·)) := by
  induction t with
  | nil => rfl
  | cons c rest ih =>
    have hr : (cut p rest).1 = rest.takeWhile (!p ·) := Option.some.inj ih
    cases hc : p c <;> simp [split, cut, hc, hr]

theorem takeWhile_ofBytes (bytes : List UInt8) :
    (ofBytes bytes).takeWhile (· != '\x00') = ofBytes (bytes.takeWhile (· != 0)) := by
  have h := congrArg List.head? (split_ofBytes bytes)
  rw [List.head?_map, head?_split, head?_split] at h
  exact Option.some.inj h

theorem split_append_cons {α : Type} {p : α → Bool} {before : List α} {c : α}
    (h : ∀ d ∈ before, p d = false) (hc : p c = true) (after : List α) :
    split p (before ++ c :: after) = before :: split p after := by
  induction before with
  | nil => simp [split, cut, hc]
  | cons d before ih =>
    have hr := ih fun e he => h e (.tail _ he)
    simp only [split, List.cons.injEq] at hr
    simp [split, cut, h d (.head _), hr]

/-- The pieces that are not empty. -/
def items (t : Text) : List Text := (split (· == '\x00') t).filter fun piece => !piece.isEmpty

theorem items_replicate_append (n : Nat) (t : Text) :
    items (List.replicate n '\x00' ++ t) = items t := by
  induction n with
  | zero => rfl
  | succ n ih =>
    rw [List.replicate_succ, List.cons_append, ← ih]
    unfold items
    rw [← List.nil_append ('\x00' :: _), split_append_cons (by simp) rfl]
    simp

/-- A text with the zero characters after it is one item. -/
theorem items_append {t : Text} (hne : t ≠ []) (hz : '\x00' ∉ t) (n : Nat) (rest : Text) :
    items (t ++ (List.replicate (n + 1) '\x00' ++ rest)) = t :: items rest := by
  have h : ∀ c ∈ t, (c == '\x00') = false := fun c hc =>
    beq_eq_false_iff_ne.2 fun he => hz (he ▸ hc)
  rw [← items_replicate_append n rest, List.replicate_succ, List.cons_append]
  unfold items
  rw [split_append_cons h rfl]
  simp [hne]

end StockFlow.Text

namespace StockFlow.Engine.Answer

/-- Each text in UTF-8 with zero bytes after it, one and as many more as its number says. -/
def listed (texts : List (Text × Nat)) : List UInt8 :=
  texts.flatMap fun (t, more) => Text.toUtf8 t ++ List.replicate (more + 1) 0

theorem items_listed {texts : List (Text × Nat)}
    (h : ∀ t ∈ texts, t.1 ≠ [] ∧ '\x00' ∉ t.1) :
    Text.items (Text.ofBytes (listed texts)) = texts.map (·.1) := by
  induction texts with
  | nil => rfl
  | cons first rest ih =>
    obtain ⟨hne, hz⟩ := h first (.head _)
    rw [listed, List.flatMap_cons, List.append_assoc, Text.ofBytes_toUtf8_append,
      Text.ofBytes_replicate_append, Text.items_append hne hz]
    exact congrArg (first.1 :: ·) (ih fun t ht => h t (.tail _ ht))

theorem ofBytes_of_isList {a : Attribute} (h : a.isList = true) (bytes : List UInt8) :
    ofBytes a bytes = .list (Text.items (Text.ofBytes bytes)) := by
  have hf : ((fun t : Text => !t.isEmpty) ∘ Text.ofBytes) = fun piece => !piece.isEmpty :=
    funext fun piece => congrArg (!·) (Text.isEmpty_ofBytes piece)
  rw [ofBytes, if_pos h, Text.items, Text.split_ofBytes, List.filter_map, hf]

/-- An answer is the same whether its bytes are cut at the zeros and each piece is read, or all of
them are read, with one replacement for each longest part that is no character, and the text is cut:
a list is the pieces that are not empty, and a text is what stands before the first zero. So a list
of texts comes back as it was written, whatever zero bytes are repeated after them. -/
theorem ofBytes_decoded (a : Attribute) (bytes : List UInt8) :
    (∀ t, Text.Utf8.Lossy bytes t ↔ t = Text.ofBytes bytes) ∧
    ofBytes a bytes = (if a.isList then
      .list ((Text.split (· == '\x00') (Text.ofBytes bytes)).filter fun item => !item.isEmpty)
      else .text ((Text.ofBytes bytes).takeWhile (· != '\x00'))) ∧
    (a.isList → ∀ texts : List (Text × Nat), (∀ t ∈ texts, t.1 ≠ [] ∧ '\x00' ∉ t.1) →
      ofBytes a (listed texts) = .list (texts.map (·.1))) := by
  refine ⟨fun t => Text.lossy_iff, ?_, fun hl texts ht => ?_⟩
  · by_cases hl : a.isList
    · rw [if_pos hl]
      exact ofBytes_of_isList hl bytes
    · rw [if_neg hl, ofBytes, if_neg hl, Text.takeWhile_ofBytes]
  · rw [ofBytes_of_isList hl, items_listed ht]

/-- Three elements, two of them not in ASCII, with one, three and two zero bytes after them. -/
theorem subscripts_decoded :
    Attribute.subscripts.isList = true ∧
    (∀ t ∈ [("kg".toList, 0), ("m³".toList, 2), ("€/😀".toList, 1)], t.1 ≠ [] ∧ '\x00' ∉ t.1) ∧
    ofBytes .subscripts
      [107, 103, 0, 109, 194, 179, 0, 0, 0, 226, 130, 172, 47, 240, 159, 152, 128, 0, 0] =
      .list ["kg".toList, "m³".toList, "€/😀".toList] := by
  have hl : Attribute.subscripts.isList = true := rfl
  have ht : ∀ t ∈ [("kg".toList, 0), ("m³".toList, 2), ("€/😀".toList, 1)],
      t.1 ≠ [] ∧ '\x00' ∉ t.1 := by decide
  exact ⟨hl, ht, (ofBytes_decoded .subscripts []).2.2 hl _ ht⟩

/-- The zero byte cuts the euro sign short; what comes after it is read from the start. -/
example : ofBytes .subscripts [226, 130, 0, 130, 65] = .list [['\uFFFD'], ['\uFFFD', 'A']] := by
  decide

end StockFlow.Engine.Answer
