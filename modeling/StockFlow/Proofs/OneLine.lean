import StockFlow.Proofs.RoundTrip
import StockFlow.Proofs.Tiling

/-! Where line feeds can stand. The lines of a text have them only at their ends, joining takes the
ends away, and nothing that a record holds is made of anything but characters of its lines, spaces
and commas. So no field of a record has a line feed, and each line of a written record ends where it
is meant to end. -/
namespace StockFlow

/-! ### Characters of joined lines -/

namespace Mark

theorem find?_subset {mark : Mark} {line before after : Text}
    (h : mark.find? line = some (before, after)) : before ⊆ line ∧ after ⊆ line := by
  cases mark with
  | delimiter =>
    have hdrop : line.dropWhile Unicode.isBlank ⊆ line := (List.dropWhile_sublist _).subset
    simp only [find?] at h
    split at h
    next rest hrest =>
      obtain ⟨rfl, rfl⟩ := by simpa using h
      rw [hrest] at hdrop
      exact ⟨List.nil_subset _, List.Subset.trans (List.subset_cons_self _ _) hdrop⟩
    next =>
      obtain ⟨rfl, rfl⟩ := by simpa using h
      exact ⟨List.nil_subset _, hdrop⟩
  | terminator =>
    obtain ⟨text, ht, heq⟩ := Option.map_eq_some_iff.1 h
    obtain ⟨rfl, rfl⟩ := by simpa using heq
    refine ⟨?_, List.nil_subset _⟩
    have htext : text ⊆ Text.trimEnd line := by
      unfold Text.dropLast? at ht
      split at ht
      · rw [← Option.some.inj ht]
        exact List.dropLast_subset _
      · simp at ht
    exact List.Subset.trans (List.rdropWhile_prefix _ _).subset
      (List.Subset.trans htext (List.rdropWhile_prefix _ _).subset)
  | tilde | bar =>
    obtain ⟨rfl, -⟩ := Text.breakAt?_eq_some h
    exact ⟨List.subset_append_left _ _,
      List.Subset.trans (List.subset_cons_self _ _) (List.subset_append_right _ _)⟩

theorem stripHead_subset (mark : Mark) (line : Text) : mark.stripHead line ⊆ line := by
  unfold stripHead
  split
  next h => exact (find?_subset h).2
  next => exact List.Subset.refl _

theorem stripTail_subset (mark : Mark) (line : Text) : mark.stripTail line ⊆ line := by
  unfold stripTail
  split
  next h => exact (find?_subset h).1
  next => exact List.Subset.refl _

end Mark

namespace Line

theorem strip_subset {f : Mark → Text → Text} (hf : ∀ mark line, f mark line ⊆ line)
    (mark : Option Mark) (line : Text) : strip mark f line ⊆ line := by
  cases mark with
  | none => exact List.Subset.refl _
  | some mark => exact hf mark line

theorem content_subset (head : Option Mark) (line : Text) : content head line ⊆ withoutEnding line :=
  List.Subset.trans (Text.trim_sublist _).subset (strip_subset Mark.stripHead_subset head _)

theorem continued_subset (t : Text) : continued t ⊆ t := by
  unfold continued
  cases hd : t.dropLast? '\\' with
  | none => exact List.Subset.refl _
  | some s =>
    unfold Text.dropLast? at hd
    split at hd
    · rw [← Option.some.inj hd]
      exact List.Subset.trans (List.rdropWhile_prefix _ _).subset (List.dropLast_subset _)
    · simp at hd

theorem lastPiece_subset (head tail : Option Mark) (line : Text) :
    lastPiece head tail line ⊆ withoutEnding line :=
  List.Subset.trans (Text.trim_sublist _).subset
    (List.Subset.trans (strip_subset Mark.stripTail_subset tail _)
      (strip_subset Mark.stripHead_subset head _))

/-- Joined lines are made of their characters and of spaces. -/
theorem mem_join {head tail : Option Mark} {lines : List Text} {c : Char}
    (h : c ∈ join head tail lines) : c = ' ' ∨ ∃ l ∈ lines, c ∈ withoutEnding l := by
  rcases List.eq_nil_or_concat' lines with rfl | ⟨lines, line, rfl⟩
  · simp [join, pieces, Text.joinWith] at h
  · rw [join_eq, together] at h
    rcases Text.mem_intercalate h with h | ⟨p, hp, hc⟩
    · exact .inl (by simpa using h)
    · refine .inr ?_
      rcases List.mem_append.1 (List.mem_filter.1 hp).1 with hp | hp
      · obtain ⟨l, hl, rfl⟩ := List.mem_map.1 hp
        exact ⟨l, by simp [hl], content_subset head l (continued_subset _ hc)⟩
      · rw [List.mem_singleton.1 hp] at hc
        exact ⟨line, by simp, lastPiece_subset head tail line hc⟩

theorem withoutEnding_subset (line : Text) : withoutEnding line ⊆ line :=
  (List.rdropWhile_prefix _ _).subset

/-- A line feed at the end of a line is gone with the ending. -/
theorem not_mem_withoutEnding {line : Text} (h : '\n' ∉ line.dropLast) :
    '\n' ∉ withoutEnding line := by
  obtain ⟨s, hs, -⟩ := Text.exists_dropTrailing (fun c => c == '\n' || c == '\r') line
  have hw : line = withoutEnding line ++ s := hs
  intro hm
  rcases List.eq_nil_or_concat' s with rfl | ⟨s', d, rfl⟩
  · rcases List.eq_nil_or_concat' line with hn | ⟨init, d, hd⟩
    · rw [hn] at hm
      simp [withoutEnding, Text.dropTrailing] at hm
    · rw [List.append_nil] at hw
      rw [← hw, hd] at hm
      rw [hd, List.dropLast_concat] at h
      rcases List.mem_append.1 hm with hm | hm
      · exact h hm
      · have hlast := Block.last_withoutEnding line d (by rw [← hw, hd]; simp)
        exact hlast.1 (List.mem_singleton.1 hm).symm
  · rw [hw, ← List.append_assoc, List.dropLast_concat] at h
    exact h (List.mem_append_left _ hm)

theorem not_mem_join {head tail : Option Mark} {lines : List Text}
    (h : ∀ l ∈ lines, '\n' ∉ withoutEnding l) : '\n' ∉ join head tail lines := by
  intro hm
  rcases mem_join hm with hc | ⟨l, hl, hc⟩
  · exact absurd hc (by decide)
  · exact h l hl hc

theorem not_mem_oneLine (t : Text) : '\n' ∉ Edit.oneLine t :=
  not_mem_join fun _ hl => not_mem_withoutEnding (not_mem_dropLast_of_split hl)

end Line

/-! ### Characters of names -/

namespace Piece

/-- The key of a name begins as the name does, and is made of its characters and of commas. -/
theorem key_of_first {c : Char} {rest k : Text}
    (h : (first c rest).token?.bind Token.key = some k) :
    k.head? = some c ∧ ∀ x ∈ k, x ∈ (first c rest).source ∨ x = ',' := by
  have hword (f : Text → Text) (hw : first c rest = word c f rest) :
      k.head? = some c ∧ ∀ x ∈ k, x ∈ (first c rest).source ∨ x = ',' := by
    rw [hw, word] at h ⊢
    rcases named_cases (c :: f rest) (rest.drop (f rest).length) with
      ⟨subscript, after, -, -, hn⟩ | ⟨-, hn⟩
    · rw [hn] at h ⊢
      obtain rfl : Token.elementName (c :: f rest) subscript = k := by
        simpa [token?, Token.key] using h
      refine ⟨rfl, fun x hx => ?_⟩
      rw [Token.elementName_eq] at hx
      by_cases hcomma : x = ','
      · exact .inr hcomma
      · refine .inl ?_
        have hsubscript : x ∈ Token.elements subscript → x ∈ subscript := fun hm => by
          by_contra hn
          exact Token.not_mem_elements hn hcomma hm
        simp only [source, List.mem_append, List.mem_cons] at hx ⊢
        tauto
    · rw [hn] at h ⊢
      obtain rfl : c :: f rest = k := by simpa [token?, Token.key] using h
      exact ⟨rfl, fun x hx => .inl hx⟩
  rcases word_of_key h with ⟨-, hw⟩ | ⟨-, hw⟩
  · exact hword _ hw
  · exact hword _ hw

theorem source_subset {t : Text} {p : Piece} (h : p ∈ scan t) : p.source ⊆ t := by
  intro x hx
  rw [← scan_source t]
  exact List.mem_flatMap.2 ⟨p, h, hx⟩

theorem mem_key_of_scan {t k : Text} {p : Piece} (h : p ∈ scan t)
    (hk : p.token?.bind Token.key = some k) : ∀ x ∈ k, x ∈ t ∨ x = ',' := by
  intro x hx
  obtain ⟨ps, qs, hscan⟩ := List.append_of_mem h
  obtain ⟨c, s, more, rfl, -, -⟩ := exists_first hscan
  exact ((key_of_first hk).2 x hx).imp_left fun hm => source_subset h hm

end Piece

theorem mem_of_mem_references {d : Dialect} {t k : Text} (h : k ∈ references d t) :
    ∀ x ∈ k, x ∈ t ∨ x = ',' := by
  obtain ⟨-, p, hp, hk⟩ := mem_references h
  exact Piece.mem_key_of_scan hp hk

theorem Call.arguments_subset {equation function a : Text} {args : List Text}
    (h : arguments equation function = .ok args) (ha : a ∈ args) : a ⊆ equation := by
  obtain ⟨qs, ⟨before, p, after, hscan, -⟩, rfl⟩ := arguments_run h a ha
  intro x hx
  obtain ⟨q, hq, hxq⟩ := List.mem_flatMap.1 ((Text.trim_sublist _).subset hx)
  refine Piece.source_subset ?_ hxq
  rw [hscan]
  simp [hq]

theorem not_mem_dependencies {d : Dialect} {operator : Operator} {t equation : Text}
    {parents : NameSet} (h : dependencies d operator t = .ok (equation, parents))
    (ht : '\n' ∉ t) : '\n' ∉ equation ∧ ∀ k ∈ parents.items, '\n' ∉ k := by
  have hkey {u k : Text} (hu : u ⊆ t) (hk : k ∈ references d u) : '\n' ∉ k := by
    intro hm
    rcases mem_of_mem_references hk _ hm with hm | hm
    · exact ht (hu hm)
    · exact absurd hm (by decide)
  rcases dependencies_cases h with ⟨-, rfl, args, hargs, rfl⟩ | ⟨rfl, hparents⟩
  · refine ⟨by simp, fun k hk => ?_⟩
    rw [Catalog.mem_ofList] at hk
    obtain ⟨a, ha, hka⟩ := List.mem_flatMap.1 hk
    exact hkey (Call.arguments_subset hargs ha) hka
  · exact ⟨ht, fun k hk => hkey (List.Subset.refl _) (hparents k hk)⟩

/-! ### One-line records -/

/-- No field has a line feed, so that each line that is written of it is one line. -/
structure IsOneLine (r : Record) : Prop where
  name : '\n' ∉ r.name
  equation : '\n' ∉ r.equation
  units : '\n' ∉ r.units
  comment : '\n' ∉ r.comment
  parents : ∀ k ∈ r.parents.items, '\n' ∉ k

theorem IsOneLine.congr {r s : Record} (h : IsOneLine r) (hs : s.authored = r.authored) :
    IsOneLine s := by
  obtain ⟨name, operator, equation, units, comment, parents, children, role⟩ := r
  obtain ⟨name', operator', equation', units', comment', parents', children', role'⟩ := s
  simp only [Record.authored, Record.mk.injEq] at hs
  obtain ⟨rfl, -, rfl, rfl, rfl, rfl, -, -⟩ := hs
  exact ⟨h.name, h.equation, h.units, h.comment, h.parents⟩

theorem isOneLine_of_apply {d : Dialect} {e : Edit} {r s : Record} (hr : IsOneLine r)
    (h : e.apply d r = .ok s) : IsOneLine s := by
  obtain ⟨equation, parents, hsource, rfl⟩ := Edit.apply_cases h
  have hequation : '\n' ∉ equation ∧ ∀ k ∈ parents.items, '\n' ∉ k := by
    rcases hsource with ⟨rfl, rfl⟩ | ⟨t, hdep⟩
    · exact ⟨hr.equation, hr.parents⟩
    · exact not_mem_dependencies hdep (Line.not_mem_oneLine t)
  have helim {old : Text} (ho : '\n' ∉ old) (t : Option Text) : '\n' ∉ t.elim old Edit.oneLine :=
    Edit.elim_oneLine (P := fun t => '\n' ∉ t) ho Line.not_mem_oneLine t
  exact ⟨hr.name, hequation.1, helim hr.units _, helim hr.comment _, hequation.2⟩

namespace Block

theorem split_subset (rest : Text) : (Operator.split rest).2 ⊆ rest := by
  have hrest : rest.trimStart ⊆ rest := (List.dropWhile_sublist _).subset
  unfold Operator.split
  split
  case h_1 h =>
    rw [h] at hrest
    exact fun x hx => hrest (.tail _ (.tail _ hx))
  case h_2 h | h_3 h =>
    rw [h] at hrest
    exact fun x hx => hrest (.tail _ hx)
  case h_4 => exact hrest

theorem definition_subset {line name definition : Text}
    (h : declared? line = some (name, definition)) :
    definition ⊆ line ∧ ∀ x ∈ name, x ∈ line ∨ x = ',' := by
  obtain ⟨gaps, s, token, qs, hscan, hkey, rfl⟩ := declared?_eq_some h
  have hp : Piece.lexeme s token ∈ Piece.scan line := by simp [hscan]
  refine ⟨fun x hx => ?_, Piece.mem_key_of_scan hp hkey⟩
  rw [← Piece.scan_source line, hscan]
  simp [hx]

theorem isOneLine_of_read {d : Dialect} {block : Stretch} {r : Record}
    (h : read d block = .ok r) (hlines : ∀ l ∈ block.lines, '\n' ∉ l.dropLast) : IsOneLine r := by
  have hread := read_eq_ok_iff.1 h
  generalize block.lines = lines at hread hlines
  have hends : ∀ l ∈ lines, '\n' ∉ Line.withoutEnding l :=
    fun l hl => Line.not_mem_withoutEnding (hlines l hl)
  cases hread with
  | @intro first name definition units comment equation continued more rest parents declared _ _ _ _
      depends =>
    obtain ⟨hdefinition, hname⟩ := definition_subset declared
    have hfirst := hends first (.head _)
    have hstart : '\n' ∉ Line.withoutEnding (Operator.split definition).2 := fun hm =>
      hfirst (hdefinition (split_subset definition (Line.withoutEnding_subset _ hm)))
    have hequation : '\n' ∉ Line.join none none ((Operator.split definition).2 :: continued) :=
      Line.not_mem_join (List.forall_mem_cons.2 ⟨hstart, fun l hl => hends l (by simp [hl])⟩)
    obtain ⟨he, hp⟩ := not_mem_dependencies depends hequation
    refine ⟨fun hm => ?_, he, Line.not_mem_join fun l hl => hends l ?_,
      Line.not_mem_join fun l hl => hends l ?_, hp⟩
    · rcases hname _ hm with hm | hm
      · exact hfirst hm
      · exact absurd hm (by decide)
    · simp only [List.mem_append, List.mem_cons] at hl ⊢
      tauto
    · simp only [List.mem_append, List.mem_cons] at hl ⊢
      tauto

end Block

end StockFlow
