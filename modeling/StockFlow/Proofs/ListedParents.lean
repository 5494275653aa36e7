import StockFlow.Proofs.RoundTrip

/-! Parents without an equation. They are written as the arguments of a placeholder and read back,
however the call is broken into lines, and whatever stands on the other lines of the block. The name
of the variable may be a quoted name that nothing closes; then the operator is read as a part of it,
and the parents still come back. -/
namespace StockFlow

open Text (IsTrimmed)

namespace Piece

/-- The keys of closed names are those of tokens that something follows. -/
theorem isKey_iff {k : Text} : IsKey k ↔ ∃ t before p after, scan t = before ++ p :: after ∧
    after ≠ [] ∧ p.token?.bind Token.key = some k := by
  constructor
  · intro h
    obtain ⟨token, hkey, -, hscan⟩ := h.scan_append
    have hcomma : scan [','] = [lexeme [','] .comma] := by rw [scan_comma, scan_nil]
    refine ⟨k ++ [','], [], lexeme k token, [lexeme [','] .comma], ?_, by simp, hkey⟩
    rw [hscan [','] (endsName_cons (by simp) []), hcomma, List.nil_append]
  · rintro ⟨t, before, p, after, hscan, hafter, hkey⟩
    exact (isKey_of_scan hscan hkey).resolve_right fun h => hafter h.1

/-- What follows a name that nothing closes is read as a part of it. -/
theorem IsUnclosed.isKey_or_append {k : Text} (h : IsUnclosed k) :
    IsKey k ∨ ∀ operator : Operator, IsUnclosed (k ++ operator.symbol) := by
  obtain ⟨body, rfl, hbody⟩ := h
  refine (closes_or_open hbody).imp (fun hclosed => .name (.quoted hclosed)) ?_
  rintro ⟨escaped, hopen⟩ operator
  refine ⟨body ++ operator.symbol, rfl, ?_⟩
  rw [hopen]
  cases operator <;> cases escaped <;> rfl

end Piece

open Piece (IsKey)

namespace Block

/-- A name that lines declare is declared by the line that is written for it, or, if nothing closes
it, the line declares one name with the operator in it. -/
theorem declared?_again {line name definition : Text}
    (h : declared? (Line.withoutEnding line) = some (name, definition)) {operator : Operator}
    (hop : operator ≠ .subscriptRange) : ∃ name' operator', operator' ≠ .subscriptRange ∧
      declared? (name ++ operator.symbol) = some (name', Operator.symbol operator') := by
  have hkey (hk : IsKey name) : ∃ name' operator', operator' ≠ .subscriptRange ∧
      declared? (name ++ operator.symbol) = some (name', Operator.symbol operator') :=
    ⟨name, operator, hop, declared?_of_isKey hk operator⟩
  rcases name_of_declared? h with hk | ⟨hu, -⟩
  · exact hkey hk
  · rcases hu.isKey_or_append with hk | hopen
    · exact hkey hk
    · exact ⟨_, .none, by simp, declared?_of_isUnclosed (hopen operator)⟩

end Block

section Default

variable {d : Dialect} (hd : d.placeholder.text = "A FUNCTION OF".toList)
include hd

theorem not_isForeign_default : ∀ c ∈ d.placeholder.text.head?, ¬ Piece.IsForeign c := by
  intro c hc
  rw [hd] at hc
  obtain rfl : 'A' = c := by simpa using hc
  unfold Piece.IsForeign
  decide

/-- Where the placeholder is the default one, the parents of a record without an equation come back
from its lines, whatever its name, its operator, its other texts and the width of the lines, and no
equation does. Only a subscript range has no parents. -/
theorem listed_parents_restored {line definition : Text} {r : Record}
    (hname : Block.declared? (Line.withoutEnding line) = some (r.name, definition))
    (hop : r.operator ≠ .subscriptRange) (he : r.equation = []) (hn : r.parents.items ≠ [])
    (hk : ∀ k ∈ r.parents.items, IsKey k ∧ d.reserves k = false) (ending : Newline) (start : Nat) :
    ∃ s, Block.read d ⟨start, Block.write d ending r⟩ = .ok s ∧ s.equation = [] ∧
      s.parents = r.parents := by
  have htext : Block.equationText d r = placeholderCall d r.parents.items := by
    simp [Block.equationText, placeholderCall, he, Catalog.isEmpty, hn]
  have htrimmed := isTrimmed_placeholderCall (not_isForeign_default hd) r.parents.items
  have htilde : (placeholderCall d r.parents.items).head? ≠ some '~' := by
    rw [head?_placeholderCall]
    exact fun hc => not_isForeign_default hd '~' hc (.inr rfl)
  obtain ⟨name, operator, hrefers, hdeclared⟩ := Block.declared?_again hname hop
  have hread := Block.read_written ending start (Block.last_of_declared? hname) hdeclared
    (htext ▸ htrimmed) (htext ▸ htilde)
  rw [htext, dependencies_placeholderCall hrefers hn hk (isName_default hd)] at hread
  exact ⟨_, hread, rfl, rfl⟩

end Default

/-- The standard dialect with the narrowest lines. -/
def narrowDialect : Dialect :=
  { Dialect.standard with
    reserved := ["Time".toList]
    maxWidth := leastWidth
    leastWidth_le := Nat.le_refl _ }

/-- Names with marks, delimiters and escapes in quotes, a subscripted name, the name of a function and
one that differs from a reserved name in case. -/
def markedNames : List Text :=
  ["\"in, (1 ~ | \\\" x\"".toList, Token.elementName "\"t[a]\"".toList " b, c d ".toList,
    "MAX".toList, "time".toList]

theorem isKey_markedNames : ∀ k ∈ markedNames, IsKey k ∧ narrowDialect.reserves k = false := by
  -- each of them is what is read before a comma
  have hread (t : Text) (token : Token) {k : Text}
      (hscan : Piece.scanUpTo (t ++ [',']).length (t ++ [',']) =
        [.lexeme t token, .lexeme [','] .comma]) (hkey : token.key = some k) : IsKey k :=
    Piece.isKey_iff.2 ⟨t ++ [','], [], _, _, (Piece.scan_eq_scanUpTo _).trans hscan, by simp, hkey⟩
  simp only [markedNames, List.forall_mem_cons, List.not_mem_nil, false_implies, implies_true,
    and_true]
  exact ⟨⟨hread "\"in, (1 ~ | \\\" x\"".toList (.ident _) rfl rfl, by decide⟩,
    ⟨hread "\"t[a]\" [ b, c d ]".toList (.subscripted _ _) rfl rfl, by decide⟩,
    ⟨hread "MAX".toList (.ident _) rfl rfl, by decide⟩,
    hread "time".toList (.ident _) rfl rfl, by decide⟩

/-- A variable whose name is a quoted name that nothing closes. -/
def unclosedRecord : Record where
  name := "\"level | a".toList
  operator := .data
  equation := []
  units := "~ m3".toList
  comment := "\n~\\".toList
  parents := Catalog.ofList markedNames
  children := Catalog.empty
  role := .unclassified

theorem unclosedRecord_declared : Block.declared? (Line.withoutEnding "\"level | a\n".toList) =
    some (unclosedRecord.name, []) := by
  rw [Block.declared?, Piece.scan_eq_scanUpTo]
  rfl

theorem unclosedRecord_restored : narrowDialect.placeholder.text = "A FUNCTION OF".toList ∧
    Block.declared? (Line.withoutEnding "\"level | a\n".toList) = some (unclosedRecord.name, []) ∧
    unclosedRecord.operator ≠ .subscriptRange ∧ unclosedRecord.equation = [] ∧
    unclosedRecord.parents.items ≠ [] ∧
    (∀ k ∈ unclosedRecord.parents.items, IsKey k ∧ narrowDialect.reserves k = false) ∧
    ∃ s, Block.read narrowDialect ⟨7, Block.write narrowDialect .crlf unclosedRecord⟩ = .ok s ∧
      s.equation = [] ∧ s.parents = unclosedRecord.parents := by
  have hd : narrowDialect.placeholder.text = "A FUNCTION OF".toList := by decide
  have hop : unclosedRecord.operator ≠ .subscriptRange := by decide
  have hmem (k : Text) : k ∈ unclosedRecord.parents.items ↔ k ∈ markedNames := Catalog.mem_ofList
  have hn : unclosedRecord.parents.items ≠ [] :=
    List.ne_nil_of_mem ((hmem _).2 (List.mem_cons_self ..))
  have hk := fun k hk => isKey_markedNames k ((hmem k).1 hk)
  exact ⟨hd, unclosedRecord_declared, hop, rfl, hn, hk,
    listed_parents_restored hd unclosedRecord_declared hop rfl hn hk .crlf 7⟩

end StockFlow
