import StockFlow.Proofs.OneLine

/-! The lines of a written record among other lines. The first is a declaration, because the name of
a record that was read begins as the line that declared it; each other line starts with a tab and
holds something, so that none of them is blank, ends the variables or opens a macro. -/
namespace StockFlow

open Text (IsTrimmed)

/-! ### Lines that are not blank -/

namespace Line

theorem isBlank_eq_true {line : Text} (h : isBlank line = true) :
    ∀ c ∈ line, Unicode.isBlank c = true := by
  have htrim : Text.trimEnd (Text.trimStart line) = [] := by simpa [isBlank, Text.trim] using h
  have hstart : Text.trimStart line = [] := by
    by_contra hn
    obtain ⟨c, rest, hc⟩ := List.exists_cons_of_ne_nil hn
    have hhead := Text.head_trimStart line c (by simp [hc])
    have hall := List.rdropWhile_eq_nil_iff.1 htrim c (by simp [hc])
    simp [hhead] at hall
  exact List.dropWhile_eq_nil_iff.1 hstart

theorem isBlank_eq_false {line : Text} {c : Char} (hc : c ∈ line)
    (hb : Unicode.isBlank c = false) : isBlank line = false := by
  by_contra h
  have hblank := isBlank_eq_true (by simpa using h) c hc
  simp [hb] at hblank

theorem not_isBlank_of_isAlphanumeric {c : Char} (h : Unicode.isAlphanumeric c = true) :
    Unicode.isBlank c = false :=
  Unicode.Ranges.not_contains_of_apart
    (by decide +kernel : Unicode.Ranges.apart _ Unicode.blanks = true) h

/-- A character that a declaration can begin with. -/
def startsDeclaration (c : Char) : Bool := Unicode.isAlphanumeric c || c == '_' || c == '"'

theorem isDeclaration_iff {line : Text} :
    isDeclaration line = true ↔ ∃ c rest, line = c :: rest ∧ startsDeclaration c = true := by
  cases line with
  | nil => simp [isDeclaration]
  | cons c rest => simp [isDeclaration, startsDeclaration]

theorem isDeclaration_append {line : Text} (h : isDeclaration line = true) (rest : Text) :
    isDeclaration (line ++ rest) = true := by
  obtain ⟨c, more, rfl, hc⟩ := isDeclaration_iff.1 h
  exact isDeclaration_iff.2 ⟨c, more ++ rest, rfl, hc⟩

theorem not_isBlank_of_startsDeclaration {c : Char} (h : startsDeclaration c = true) :
    Unicode.isBlank c = false := by
  simp only [startsDeclaration, Bool.or_eq_true, beq_iff_eq] at h
  rcases h with (h | rfl) | rfl
  · exact not_isBlank_of_isAlphanumeric h
  · decide
  · decide

theorem ne_of_startsDeclaration {c : Char} (h : startsDeclaration c = true) :
    c ∉ [':', '*', '\x7b'] := by
  have hall : ([':', '*', '\x7b'].all fun d => !startsDeclaration d) = true := by decide
  intro hc
  have hd := List.all_eq_true.1 hall c hc
  simp [h] at hd

theorem toLower_eq_colon {c : Char} (h : c.toLower = ':') : c = ':' := by
  unfold Char.toLower at h
  split at h
  next hu =>
    obtain ⟨h₁, h₂⟩ : 65 ≤ c.toNat ∧ c.toNat ≤ 90 := hu
    have hval : (c.val + 32).toNat = 58 := congrArg Char.toNat h
    rw [UInt32.toNat_add, Char.toNat_val, show (32 : UInt32).toNat = 32 from rfl] at hval
    omega
  next => exact h

/-- Only a colon opens a macro. -/
theorem head_of_opensMacro {line : Text} (h : opensMacro line = true) :
    line.trimStart.head? = some ':' := by
  have heq : (line.trimStart.take 7).map Char.toLower = ":MACRO:".toList.map Char.toLower := by
    simpa [opensMacro, opensWith] using h
  cases ht : line.trimStart with
  | nil => simp [ht] at heq
  | cons c rest =>
    rw [ht] at heq
    have hc : c.toLower = ':' := (List.cons.inj heq).1
    rw [toLower_eq_colon hc]
    rfl

theorem not_opensMacro {line : Text} (h : isDeclaration line = true) : opensMacro line = false := by
  obtain ⟨c, rest, rfl, hc⟩ := isDeclaration_iff.1 h
  by_contra ho
  have hhead := head_of_opensMacro (by simpa using ho)
  have htrim : Text.trimStart (c :: rest) = c :: rest :=
    Text.trimStart_eq_self fun x hx => by
      rw [← Option.some.inj hx]
      exact not_isBlank_of_startsDeclaration hc
  rw [htrim] at hhead
  obtain rfl : c = ':' := Option.some.inj hhead
  exact ne_of_startsDeclaration hc (by simp)

theorem not_isDeclaration_of_isBlank {line : Text} (h : isBlank line = true) :
    isDeclaration line = false := by
  by_contra hd
  obtain ⟨c, rest, rfl, hc⟩ := isDeclaration_iff.1 (by simpa using hd)
  have hblank := isBlank_eq_true h c (.head _)
  simp [not_isBlank_of_startsDeclaration hc] at hblank

theorem not_isBoundaryLine {d : Dialect} {line : Text} (h : line.head? ≠ some d.boundary) :
    d.isBoundaryLine line = false := by
  by_contra hb
  have hb : line ≠ [] ∧ ∀ c ∈ line, c = d.boundary := by simpa [Dialect.isBoundaryLine] using hb
  obtain ⟨c, rest, rfl⟩ := List.exists_cons_of_ne_nil hb.1
  exact h (congrArg some (hb.2 c (.head _)))

theorem head?_of_withoutEnding {line : Text} {c : Char} (h : (withoutEnding line).head? = some c) :
    line.head? = some c := by
  obtain ⟨rest, hrest⟩ := List.head?_eq_some_iff.1 h
  obtain ⟨s, hs⟩ : withoutEnding line <+: line := List.rdropWhile_prefix _ _
  rw [← hs, hrest]
  rfl

theorem isTerminated_append {t : Text} (ht : '\n' ∉ t) (ending : Newline) :
    IsTerminated (t ++ ending.text) := by
  cases ending with
  | lf => exact ⟨t, ht, rfl⟩
  | crlf => exact ⟨t ++ ['\r'], by simp [ht], by simp [Newline.text]⟩

theorem Pieces.subset {t : Text} {ps : List Text} (h : Pieces t ps) : ∀ p ∈ ps, p ⊆ t := by
  induction h with
  | last t => simp
  | @cons p q t ps _ _ _ ih =>
    refine List.forall_mem_cons.2 ⟨List.subset_append_left _ _, fun r hr => ?_⟩
    exact List.Subset.trans (ih r hr)
      (List.Subset.trans (List.subset_cons_self _ _) (List.subset_append_right _ _))

/-- A wrapped line starts with a tab if the first one does. It is made of the text and of what the
first line begins with, and unless both are blank, it is not. -/
theorem mem_wrap {t line first : Text} (ht : IsTrimmed t) (hfirst : first.head? = some '\t')
    (hn : t ≠ [] ∨ ∃ c ∈ first, Unicode.isBlank c = false) {width : Nat}
    (h : line ∈ wrap width first ['\t', '\t'] t) : line.head? = some '\t' ∧
      (∃ c ∈ line, Unicode.isBlank c = false) ∧ line ⊆ first ++ t := by
  obtain ⟨p, ps, hw, hp⟩ := wrap_pieces width first ['\t', '\t'] t
  have htab : '\t' ∈ first := List.mem_of_mem_head? (by simp [hfirst])
  rw [hw] at h
  rcases List.mem_cons.1 h with rfl | h
  · have hsub : p ⊆ first ++ t :=
      List.Subset.trans (hp.subset p (.head _)) (List.subset_append_right _ _)
    refine ⟨?_, ?_, List.append_subset.2 ⟨List.subset_append_left _ _, hsub⟩⟩
    · rw [List.head?_append_of_ne_nil _ (List.ne_nil_of_mem htab), hfirst]
    · rcases hn with hn | ⟨c, hc, hb⟩
      · cases p with
        | nil =>
          cases hp with
          | last => exact absurd rfl hn
          | cons he => simp at he
        | cons c p =>
          have hhead := (hp.isTrimmed ht _ (.head _)).head c rfl
          exact ⟨c, by simp, by simpa using hhead⟩
      · exact ⟨c, List.mem_append_left _ hc, hb⟩
  · obtain ⟨q, hq, rfl⟩ := List.mem_map.1 h
    refine ⟨rfl, ?_, ?_⟩
    · have hs := hp.starts q hq
      cases q with
      | nil => simp at hs
      | cons c q => exact ⟨c, by simp, not_isBlank_of_mayStart (by simpa using hs)⟩
    · refine List.append_subset.2 ⟨?_, ?_⟩
      · simp [htab]
      · exact List.Subset.trans (hp.subset q (.tail _ hq)) (List.subset_append_right _ _)

end Line

/-! ### Declared names -/

theorem Piece.first_eq_lexeme {c : Char} (h : Line.startsDeclaration c = true) (rest : Text) :
    ∃ s token, first c rest = .lexeme s token := by
  have hword (f : Text → Text) : ∃ s token, word c f rest = .lexeme s token := by
    unfold word
    rcases named_cases (c :: f rest) (rest.drop (f rest).length) with
      ⟨subscript, after, -, -, hn⟩ | ⟨-, hn⟩
    · exact ⟨_, _, hn⟩
    · exact ⟨_, _, hn⟩
  by_cases hq : c = '"'
  · subst hq
    exact hword _
  · have hc : c ∉ decisive := by
      have hd : (decisive.all fun d => d == '"' || !Line.startsDeclaration d) = true := by
        decide
      intro hm
      simpa [h, hq] using List.all_eq_true.1 hd c hm
    rw [first_plain hc, firstPlain, if_neg (by simp [Line.not_isBlank_of_startsDeclaration h])]
    split
    · exact ⟨_, _, rfl⟩
    · split
      · exact hword _
      · exact ⟨_, _, rfl⟩

namespace Block

/-- A name begins as the line that declares it. -/
theorem head?_of_declared? {line name definition : Text} (hl : Line.isDeclaration line = true)
    (h : declared? line = some (name, definition)) : name.head? = line.head? := by
  obtain ⟨c, rest, rfl, hc⟩ := Line.isDeclaration_iff.1 hl
  obtain ⟨s, token, hfirst⟩ := Piece.first_eq_lexeme hc rest
  have hleading : ∃ definition, Token.leading? (Piece.scan (c :: rest)) = some (token, definition) := by
    rw [Piece.scan, hfirst]
    exact ⟨_, rfl⟩
  obtain ⟨definition', hleading⟩ := hleading
  obtain ⟨name', hkey, heq⟩ : ∃ name', token.key = some name' ∧
      (name', definition') = (name, definition) := by
    simpa [declared?, hleading] using h
  obtain ⟨rfl, rfl⟩ := Prod.mk.inj heq
  have hkey' : (Piece.first c rest).token?.bind Token.key = some name' := by
    rw [hfirst]
    exact hkey
  exact (Piece.key_of_first hkey').1

theorem head?_withoutEnding {line : Text} (h : Line.isDeclaration line = true) :
    (Line.withoutEnding line).head? = line.head? := by
  obtain ⟨c, rest, rfl, hc⟩ := Line.isDeclaration_iff.1 h
  obtain ⟨s, hs, hend⟩ := Text.exists_dropTrailing (fun c => c == '\n' || c == '\r') (c :: rest)
  have hs : c :: rest = Line.withoutEnding (c :: rest) ++ s := hs
  cases hw : Line.withoutEnding (c :: rest) with
  | nil =>
    rw [hw] at hs
    have hnewline : (c == '\n' || c == '\r') = true := hend c (by rw [← List.nil_append s, ← hs]; simp)
    have hnot := Line.not_newline_of_not_isBlank (Line.not_isBlank_of_startsDeclaration hc)
    simp [hnot] at hnewline
  | cons d more =>
    rw [hw] at hs
    rw [(List.cons.inj hs).1]
    rfl

theorem isDeclaration_of_read {d : Dialect} {start : Nat} {line : Text} {body : List Text}
    {r : Record} (h : read d ⟨start, line :: body⟩ = .ok r)
    (hl : Line.isDeclaration line = true) : Line.isDeclaration r.name = true := by
  have hw := head?_withoutEnding hl
  have hdeclares : Line.isDeclaration (Line.withoutEnding line) = true := by
    rw [Line.isDeclaration, hw]
    exact hl
  cases read_eq_ok_iff.1 h with
  | intro declared =>
    rw [Line.isDeclaration, (head?_of_declared? hdeclares declared).trans hw]
    exact hl

end Block

/-! ### Written lines -/

theorem Dialect.not_startsDeclaration {d : Dialect} (h : d.boundary ≠ '_') :
    Line.startsDeclaration d.boundary = false := by
  have hmark := d.boundary_mark
  simp only [isBoundaryMark, Bool.not_eq_true', Bool.or_eq_false_iff] at hmark
  simp [Line.startsDeclaration, hmark, h]

/-- A line between the header and the trailing section. -/
def IsInner (d : Dialect) (line : Text) : Prop :=
  Line.IsTerminated line ∧ d.isBoundaryLine (Line.withoutEnding line) = false

namespace Block

/-- The lines of a variable: a declaration, and lines that are not blank. -/
inductive IsBlock : List Text → Prop where
  | intro {line : Text} {body : List Text} (declares : Line.isDeclaration line = true)
      (filled : ∀ l ∈ body, Line.isBlank l = false) : IsBlock (line :: body)

section Written

variable {d : Dialect} {r : Record} (h : IsAuthored d r) (ending : Newline)

include h in
/-- Every line but the first begins with a tab and holds something. What it holds is of the fields
of the record. -/
theorem exists_of_mem_write {line : Text} (hl : line ∈ (write d ending r).tail) :
    ∃ t, line = t ++ ending.text ∧ t.head? = some '\t' ∧
      (∃ c ∈ t, Unicode.isBlank c = false) ∧ ∀ c ∈ t, c ∈ ['\t', '~', '|'] ∨
        c ∈ equationText d r ∨ c ∈ r.units ∨ c ∈ r.comment := by
  have hwrapped {first field : Text} (ht : IsTrimmed field) (hfirst : first.head? = some '\t')
      (hn : field ≠ [] ∨ ∃ c ∈ first, Unicode.isBlank c = false) (hmarks : first ⊆ ['\t', '~', '|'])
      (hm : line ∈ (Line.wrap d.maxWidth first ['\t', '\t'] field).map (· ++ ending.text)) :
      ∃ t, line = t ++ ending.text ∧ t.head? = some '\t' ∧
        (∃ c ∈ t, Unicode.isBlank c = false) ∧ ∀ c ∈ t, c ∈ ['\t', '~', '|'] ∨ c ∈ field := by
    obtain ⟨t, ht', rfl⟩ := List.mem_map.1 hm
    obtain ⟨hhead, hc, hsub⟩ := Line.mem_wrap ht hfirst hn ht'
    exact ⟨t, rfl, hhead, hc, fun c hc => (List.mem_append.1 (hsub hc)).imp_left fun hm => hmarks hm⟩
  have hdelimited {field : Text} (ht : IsTrimmed field)
      (hm : line ∈ delimitedLines d ending field) : ∃ t, line = t ++ ending.text ∧
        t.head? = some '\t' ∧ (∃ c ∈ t, Unicode.isBlank c = false) ∧
        ∀ c ∈ t, c ∈ ['\t', '~', '|'] ∨ c ∈ field :=
    hwrapped ht rfl (.inr ⟨'~', by simp, by decide⟩) (by simp) hm
  rw [write_eq, List.tail_cons, List.mem_append, List.mem_append, List.mem_append] at hl
  rcases hl with hl | hl | hl | hl
  · by_cases hn : equationText d r = []
    · simp [equationLines, hn] at hl
    · simp only [equationLines, List.isEmpty_iff, hn, if_false] at hl
      obtain ⟨t, ht, hhead, hb, hmem⟩ :=
        hwrapped (isTrimmed_equationText h) rfl (.inl hn) (by simp) hl
      exact ⟨t, ht, hhead, hb, fun c hc => (hmem c hc).imp_right .inl⟩
  · obtain ⟨t, ht, hhead, hb, hmem⟩ := hdelimited h.units hl
    exact ⟨t, ht, hhead, hb, fun c hc => (hmem c hc).imp_right fun hm => .inr (.inl hm)⟩
  · obtain ⟨t, ht, hhead, hb, hmem⟩ := hdelimited h.comment hl
    exact ⟨t, ht, hhead, hb, fun c hc => (hmem c hc).imp_right fun hm => .inr (.inr hm)⟩
  · obtain rfl := List.mem_singleton.1 hl
    exact ⟨_, rfl, rfl, ⟨'|', by simp, by decide⟩, fun c hc => .inl (by simp at hc ⊢; tauto)⟩

include h in
/-- No line but the first is blank, declares anything or ends the variables. -/
theorem continues_of_mem_write {line : Text} (hl : line ∈ (write d ending r).tail) :
    Line.isBlank line = false ∧ Line.isDeclaration line = false ∧
      d.isBoundaryLine (Line.withoutEnding line) = false := by
  obtain ⟨t, rfl, htab, ⟨c, hc, hb⟩, -⟩ := exists_of_mem_write h ending hl
  have hhead : (t ++ ending.text).head? = some '\t' := by
    rw [List.head?_append_of_ne_nil _ fun hn => by simp [hn] at htab, htab]
  refine ⟨Line.isBlank_eq_false (List.mem_append_left _ hc) hb, ?_, ?_⟩
  · rw [Line.isDeclaration, hhead]
    decide
  · refine Line.not_isBoundaryLine fun hboundary => ?_
    have htab : d.boundary = '\t' :=
      Option.some.inj ((Line.head?_of_withoutEnding hboundary).symm.trans hhead)
    have hmark := d.boundary_mark
    rw [htab] at hmark
    exact absurd hmark (by decide)

theorem not_mem_equationText (ho : IsOneLine r) : '\n' ∉ equationText d r := by
  unfold equationText
  split
  · intro hm
    simp only [List.mem_append, List.mem_cons] at hm
    rcases hm with (hm | hm | hm) | hm
    · exact absurd (d.placeholder.eq_space_of_mem hm (by decide)) (by decide)
    · exact absurd hm (by decide)
    · rcases Text.mem_intercalate hm with hm | ⟨k, hk, hm⟩
      · exact absurd hm (by decide)
      · exact ho.parents k hk hm
    · exact absurd hm (by decide)
  · exact ho.equation

include h in
theorem isTerminated_write (ho : IsOneLine r) : ∀ l ∈ write d ending r, Line.IsTerminated l := by
  intro l hl
  rw [write_eq] at hl
  rcases List.mem_cons.1 hl with rfl | hl
  · refine Line.isTerminated_append (fun hm => ?_) ending
    rcases List.mem_append.1 hm with hm | hm
    · exact ho.name hm
    · cases hop : r.operator <;> simp [hop, Operator.symbol] at hm
  · obtain ⟨t, rfl, -, -, hmem⟩ := exists_of_mem_write h ending (by rwa [write_eq])
    refine Line.isTerminated_append (fun hm => ?_) ending
    rcases hmem _ hm with hm | hm | hm | hm
    · exact absurd hm (by decide)
    · exact not_mem_equationText ho hm
    · exact ho.units hm
    · exact ho.comment hm

include h in
/-- The lines of a record can be read, and declare its name. -/
theorem exists_read_write (hp : r.equation.head? ≠ some '~' → ListsParents d r) (start : Nat) :
    ∃ s, read d ⟨start, write d ending r⟩ = .ok s ∧ s.name = r.name := by
  by_cases ht : r.equation.head? = some '~'
  · obtain ⟨s, hs, hname, -⟩ := read_write_of_tilde h ending start ht
    exact ⟨s, hs, hname⟩
  · have hread := read_write h ending start ht
    rw [hp ht] at hread
    exact ⟨_, hread, rfl⟩

end Written

/-- A record whose lines are again a block between header and trailing section. -/
structure IsWritable (d : Dialect) (r : Record) : Prop where
  authored : IsAuthored d r
  oneLine : IsOneLine r
  declares : Line.isDeclaration r.name = true
  inside : d.isBoundaryLine (r.name ++ r.operator.symbol) = false

theorem inside_of_isDeclaration {d : Dialect} {r : Record} (hb : d.boundary ≠ '_')
    (hd : Line.isDeclaration r.name = true) :
    d.isBoundaryLine (r.name ++ r.operator.symbol) = false := by
  refine Line.not_isBoundaryLine fun hhead => ?_
  obtain ⟨c, rest, hname, hc⟩ := Line.isDeclaration_iff.1 hd
  have hc' : c = d.boundary := by simpa [hname] using hhead
  rw [hc', Dialect.not_startsDeclaration hb] at hc
  exact Bool.false_ne_true hc

section Writable

variable {d : Dialect} {r : Record} (h : IsWritable d r) (ending : Newline)
include h

theorem isBlock_write : IsBlock (write d ending r) := by
  rw [write_eq]
  refine .intro (Line.isDeclaration_append (Line.isDeclaration_append h.declares _) _) fun l hl => ?_
  exact (continues_of_mem_write h.authored ending (by rwa [write_eq])).1

/-- No line that is written ends the variables. -/
theorem inside_write :
    ∀ l ∈ write d ending r, d.isBoundaryLine (Line.withoutEnding l) = false := by
  intro l hl
  rw [write_eq] at hl
  rcases List.mem_cons.1 hl with rfl | hl
  · rw [withoutEnding_declaration h.authored.nameEnds]
    exact h.inside
  · exact (continues_of_mem_write h.authored ending (by rwa [write_eq])).2.2

theorem isInner_write : ∀ l ∈ write d ending r, IsInner d l := fun l hl =>
  ⟨isTerminated_write h.authored ending h.oneLine l hl, inside_write h ending l hl⟩

end Writable

end Block

end StockFlow
