import StockFlow.Model.Load

/-! What a load does: the parts of a document are read one by one, and the load succeeds just when
every block of them can be read and no two blocks declare the same name. -/
namespace StockFlow

/-- The segments and the records of parts that can all be read, in their order. -/
inductive Reads (d : Dialect) : List Part → List Segment → List Record → Prop where
  | nil : Reads d [] [] []
  | verbatim {stretch : Stretch} {parts : List Part} {segments : List Segment}
      {records : List Record} : Reads d parts segments records →
      Reads d (.verbatim stretch :: parts) (.verbatim stretch :: segments) records
  | block {stretch : Stretch} {r : Record} {parts : List Part} {segments : List Segment}
      {records : List Record} : Block.read d stretch = .ok r → Reads d parts segments records →
      Reads d (.block stretch :: parts) (.block r.name stretch :: segments) (r :: records)

namespace Reads

variable {d : Dialect} {parts : List Part} {segments : List Segment} {records : List Record}

theorem names_eq (h : Reads d parts segments records) :
    segments.filterMap Segment.name? = records.map Record.name := by
  induction h with
  | nil => rfl
  | verbatim _ ih => exact ih
  | @block stretch r _ segments _ _ _ ih =>
    have hcons : (Segment.block r.name stretch :: segments).filterMap Segment.name? =
        r.name :: segments.filterMap Segment.name? := rfl
    rw [hcons, ih, List.map_cons]

theorem stretches_eq (h : Reads d parts segments records) :
    segments.map Segment.stretch = parts.map Part.stretch := by
  induction h with
  | nil => rfl
  | verbatim _ ih => rw [List.map_cons, List.map_cons, ih]; rfl
  | block _ _ ih => rw [List.map_cons, List.map_cons, ih]; rfl

theorem exists_block (h : Reads d parts segments records) :
    ∀ r ∈ records, ∃ block, .block block ∈ parts ∧ Block.read d block = .ok r := by
  induction h with
  | nil => simp
  | verbatim _ ih =>
    intro r hr
    obtain ⟨block, hb, hread⟩ := ih r hr
    exact ⟨block, .tail _ hb, hread⟩
  | block hread _ ih =>
    refine List.forall_mem_cons.2 ⟨⟨_, .head _, hread⟩, fun r hr => ?_⟩
    obtain ⟨block, hb, hread⟩ := ih r hr
    exact ⟨block, .tail _ hb, hread⟩

end Reads

theorem Segment.find?_eq_none {name : Text} {segments : List Segment} :
    Segment.find? name segments = none ↔ name ∉ segments.filterMap Segment.name? := by
  simp [Segment.find?]

section MapError

variable {ε ε' α : Type} (f : ε → ε')

@[simp] theorem mapError_ok (a : α) : (Except.ok a).mapError f = .ok a := rfl

@[simp] theorem mapError_error (e : ε) :
    (Except.error e : Except ε α).mapError f = .error (f e) := rfl

end MapError

namespace Model

open Loading (addPart)

variable {d : Dialect} {parts : List Part}

namespace Loading

variable {l : Loading} {stretch : Stretch}

theorem addPart_of_read {r : Record} (hread : Block.read d stretch = .ok r)
    (hnew : r.name ∉ l.segments.filterMap Segment.name?) : addPart d l (.block stretch) =
      { l with
        segments := l.segments ++ [.block r.name stretch]
        records := l.records ++ [r] } := by
  simp [addPart, hread, Segment.find?_eq_none.2 hnew]

/-- A block that is added without an error is read, and declares a new name. -/
theorem exists_of_addPart (h : (addPart d l (.block stretch)).errors = []) :
    ∃ r, Block.read d stretch = .ok r ∧ r.name ∉ l.segments.filterMap Segment.name? := by
  cases hread : Block.read d stretch with
  | error e => simp [addPart, hread, fail] at h
  | ok r =>
    cases hfind : Segment.find? r.name l.segments with
    | some first => simp [addPart, hread, hfind, fail] at h
    | none => exact ⟨r, rfl, Segment.find?_eq_none.1 hfind⟩

theorem errors_of_addPart {part : Part} (h : (addPart d l part).errors = []) : l.errors = [] := by
  cases part with
  | verbatim stretch => exact h
  | block stretch =>
    obtain ⟨r, hread, hnew⟩ := exists_of_addPart h
    rwa [addPart_of_read hread hnew] at h

theorem errors_of_foldl (h : (parts.foldl (addPart d) l).errors = []) : l.errors = [] := by
  induction parts generalizing l with
  | nil => exact h
  | cons part parts ih => exact errors_of_addPart (ih h)

/-- Parts that were read without an error have been read in order, under different names. -/
theorem reads_of_foldl (h : (parts.foldl (addPart d) l).errors = []) :
    ∃ segments records, Reads d parts segments records ∧
      parts.foldl (addPart d) l = ⟨l.segments ++ segments, l.records ++ records, []⟩ ∧
      (records.map Record.name).Nodup ∧
      ∀ r ∈ records, r.name ∉ l.segments.filterMap Segment.name? := by
  induction parts generalizing l with
  | nil =>
    have herrors : l.errors = [] := h
    exact ⟨[], [], .nil, by simp [← herrors], .nil, by simp⟩
  | cons part parts ih =>
    rw [List.foldl_cons] at h ⊢
    cases part with
    | verbatim stretch =>
      obtain ⟨segments, records, hreads, hfold, hnodup, hnew⟩ := ih h
      refine ⟨.verbatim stretch :: segments, records, .verbatim hreads, ?_, hnodup, ?_⟩
      · rw [hfold]
        simp [addPart]
      · intro r hr
        have hnr := hnew r hr
        simp only [addPart, List.filterMap_append, List.mem_append, not_or] at hnr
        exact hnr.1
    | block stretch =>
      obtain ⟨r, hread, hr⟩ := exists_of_addPart (errors_of_foldl h)
      rw [addPart_of_read hread hr] at h ⊢
      obtain ⟨segments, records, hreads, hfold, hnodup, hnew⟩ := ih h
      have hnew' : ∀ s ∈ records,
          s.name ∉ l.segments.filterMap Segment.name? ∧ s.name ≠ r.name := by
        intro s hs
        have hns := hnew s hs
        simp only [List.filterMap_append, List.mem_append, not_or] at hns
        exact ⟨hns.1, by simpa [Segment.name?] using hns.2⟩
      refine ⟨.block r.name stretch :: segments, r :: records, .block hread hreads, ?_, ?_,
        List.forall_mem_cons.2 ⟨hr, fun s hs => (hnew' s hs).1⟩⟩
      · rw [hfold]
        simp
      · refine List.nodup_cons.2 ⟨fun hm => ?_, hnodup⟩
        obtain ⟨s, hs, heq⟩ := List.mem_map.1 hm
        exact (hnew' s hs).2 heq

theorem foldl_of_reads {segments : List Segment} {records : List Record}
    (h : Reads d parts segments records) (hnodup : (records.map Record.name).Nodup) {l : Loading}
    (hnew : ∀ r ∈ records, r.name ∉ l.segments.filterMap Segment.name?) :
    parts.foldl (addPart d) l = ⟨l.segments ++ segments, l.records ++ records, l.errors⟩ := by
  induction h generalizing l with
  | nil => simp
  | @verbatim stretch parts segments records h ih =>
    rw [List.foldl_cons, ih hnodup]
    · simp [addPart]
    · intro r hr
      simpa [addPart, Segment.name?] using hnew r hr
  | @block stretch r parts segments records hread h ih =>
    obtain ⟨hr, hnew⟩ := List.forall_mem_cons.1 hnew
    obtain ⟨hne, hnodup⟩ := List.nodup_cons.1 hnodup
    rw [List.foldl_cons, addPart_of_read hread hr, ih hnodup]
    · simp
    · intro s hs
      have hsr : s.name ≠ r.name := fun heq => hne (heq ▸ List.mem_map_of_mem hs)
      simpa [Segment.name?, hsr] using hnew s hs

end Loading

/-- A load succeeds just when the document has its sections, every block of them ends and can be
read, and no two blocks declare the same name. -/
theorem load_eq_ok_iff {source : Text} {m : Model} :
    load d source = .ok m ↔ ∃ sections parts segments records,
      Sections.ofLines d (Line.split source) = .ok sections ∧
      Part.extract sections.declarations = .ok parts ∧ Reads d parts segments records ∧
      (records.map Record.name).Nodup ∧
      m = {
        dialect := d
        document := ⟨sections, segments, Newline.ofText source⟩
        graph := (Graph.ofRecords records).classified d
        edited := Catalog.empty } := by
  unfold load
  constructor
  · intro h
    cases hsections : Sections.ofLines d (Line.split source) with
    | error e => simp [hsections, bind, Except.bind] at h
    | ok sections =>
      cases hparts : Part.extract sections.declarations with
      | error e => simp [hsections, hparts, bind, Except.bind] at h
      | ok parts =>
        simp only [hsections, hparts, mapError_ok, bind, Except.bind] at h
        split at h
        next herrors =>
          obtain ⟨segments, records, hreads, hfold, hnodup, -⟩ :=
            Loading.reads_of_foldl (List.isEmpty_iff.1 herrors)
          rw [hfold] at h
          refine ⟨sections, parts, segments, records, rfl, hparts, hreads, hnodup, ?_⟩
          exact (Except.ok.inj h).symm
        · simp [throw, throwThe, MonadExceptOf.throw] at h
  · rintro ⟨sections, parts, segments, records, hsections, hparts, hreads, hnodup, rfl⟩
    have hfold := Loading.foldl_of_reads hreads hnodup (l := Loading.empty) (by simp [Loading.empty])
    simp only [hsections, hparts, mapError_ok, bind, Except.bind, hfold]
    rfl

theorem eq_ok_of_toOption {ε α : Type} {x : Except ε α} {a : α} (h : x.toOption = some a) :
    x = .ok a := by
  cases x with
  | ok b => exact congrArg _ (Option.some.inj h)
  | error e => simp [Except.toOption] at h

theorem exists_of_isSome {ε α : Type} {x : Except ε α} (h : x.toOption.isSome = true) :
    ∃ a, x = .ok a :=
  (Option.isSome_iff_exists.1 h).imp fun _ => eq_ok_of_toOption

/-- A document with a stock and its flow. -/
def tank : Text :=
  ("\x7bUTF-8\x7d\nlevel = INTEG(inflow, 10)\n\t~\tm3\n\t~\t|\n\n" ++
    "inflow = 1\n\t~\tm3/s\n\t~\t|\n\n***\n").toList

theorem tank_loads : ∃ m, load .standard tank = .ok m := exists_of_isSome (by decide +kernel)

end Model

end StockFlow
