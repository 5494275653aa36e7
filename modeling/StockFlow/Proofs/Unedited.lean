import StockFlow.Command.Run
import StockFlow.Proofs.Catalogs
import StockFlow.Proofs.Tiling

/-! A model that nobody has edited is written as it was read. Checking a file can therefore only
fail for what the file holds: it cannot be loaded, or a reference in it dangles. -/
namespace StockFlow

namespace Model

variable {d : Dialect} {source : Text} {m : Model}

theorem writtenLines_of_not_edited {s : Segment}
    (h : ∀ name, s.name? = some name → name ∉ m.edited.items) :
    m.writtenLines s = s.stretch.lines := by
  cases s with
  | verbatim stretch => rfl
  | block name stretch =>
    have hname : m.edited.contains name = false := by
      by_contra hc
      exact h name rfl (Catalog.contains_name.1 (by simpa using hc))
    simp only [writtenLines, hname]
    split <;> rfl

theorem edited_of_load (h : load d source = .ok m) : m.edited = Catalog.empty := by
  obtain ⟨_, _, _, _, -, -, -, -, rfl⟩ := load_eq_ok_iff.1 h
  rfl

theorem text_of_load (h : load d source = .ok m) : m.text = source := by
  have hlines : m.document.segments.flatMap m.writtenLines =
      m.document.segments.flatMap fun s => s.stretch.lines := by
    refine List.flatMap_congr fun s _ => writtenLines_of_not_edited fun name _ => ?_
    simp [edited_of_load h]
  rw [text, hlines]
  exact source_of_load h

theorem checkText_of_text_eq (h : m.text = source) : m.checkText source = .ok () := if_pos h

theorem checkEdges_eq (m : Model) :
    m.checkEdges = if m.dangling = [] then .ok () else .error (.dangling m.dangling) := by
  simp [checkEdges]

end Model

namespace Command

/-- Options that are refused are refused for what they hold. -/
theorem compile_ne_roundTripMismatch {o : Options} {e : Error} (h : o.compile = .error e)
    (line : Nat) (expected written : Text) : e ≠ .roundTripMismatch line expected written := by
  unfold Options.compile at h
  split at h
  · split at h
    · split at h
      · simp at h
      · rw [← Except.error.inj h]
        simp
    · rw [← Except.error.inj h]
      simp
  · rw [← Except.error.inj h]
    simp

theorem loadDialect_ne_roundTripMismatch {files : Files} {config : Option Text} {f : Failure}
    (h : loadDialect files config = .error f) (line : Nat) (expected written : Text) :
    f ≠ .library (.roundTripMismatch line expected written) := by
  have hcompile {o : Options} (ho : o.compile.mapError Failure.library = .error f) :
      f ≠ .library (.roundTripMismatch line expected written) := by
    cases hc : o.compile with
    | ok d => simp [hc] at ho
    | error e =>
      rw [hc] at ho
      rw [← Except.error.inj ho]
      intro heq
      exact compile_ne_roundTripMismatch hc line expected written (Failure.library.inj heq)
  cases config with
  | none => exact hcompile (o := Options.standard) h
  | some path =>
    cases ho : (files path).bind fun contents => (Json.parse? contents).bind Options.ofJson? with
    | some o =>
      simp only [loadDialect, ho] at h
      exact hcompile h
    | none =>
      simp only [loadDialect, ho] at h
      rw [← Except.error.inj h]
      simp

/-- What checking a file answers once the file and the options have been read. -/
theorem run_check {files : Files} {i : Invocation} {d : Dialect} {source : Text}
    (hcheck : i.action = .check) (hd : loadDialect files i.config = .ok d)
    (hs : files i.path = some source) :
    i.run files = match Model.load d source with
      | .error e => .error (.load i.path e)
      | .ok m =>
        if m.dangling = [] then
          .ok (.display s!"ok: {m.graph.records.size} variables\n".toList)
        else .error (.library (.dangling m.dangling)) := by
  simp only [Invocation.run, hd, hs, hcheck, bind, Except.bind]
  cases hload : Model.load d source with
  | error e => rfl
  | ok m =>
    simp only [mapError_ok, Action.run, bind, Except.bind,
      Model.checkText_of_text_eq (Model.text_of_load hload), Model.checkEdges_eq]
    by_cases hm : m.dangling = []
    · simp only [if_pos hm]
      rfl
    · simp only [if_neg hm, mapError_error]

/-- A loaded model is written as its source, character for character. So checking a file fails only
if the file cannot be loaded or if a reference in it dangles, besides options or a file that cannot
be read, and never because the file would be written differently. -/
theorem loaded_text_and_check (d : Dialect) (source : Text) :
    (∀ m, Model.load d source = .ok m → m.text = source ∧ m.checkText source = .ok ()) ∧
    ∀ (files : Files) (i : Invocation) (f : Failure), i.action = .check → i.run files = .error f →
      (∀ line expected written, f ≠ .library (.roundTripMismatch line expected written)) ∧
      (loadDialect files i.config = .ok d → files i.path = some source →
        (∃ e, Model.load d source = .error e ∧ f = .load i.path e) ∨
        ∃ m, Model.load d source = .ok m ∧ m.dangling ≠ [] ∧
          f = .library (.dangling m.dangling)) := by
  have hfails {files : Files} {i : Invocation} {f : Failure} {d : Dialect} {source : Text}
      (hcheck : i.action = .check) (hrun : i.run files = .error f)
      (hd : loadDialect files i.config = .ok d) (hs : files i.path = some source) :
      (∃ e, Model.load d source = .error e ∧ f = .load i.path e) ∨
        ∃ m, Model.load d source = .ok m ∧ m.dangling ≠ [] ∧
          f = .library (.dangling m.dangling) := by
    rw [run_check hcheck hd hs] at hrun
    cases hload : Model.load d source with
    | error e =>
      rw [hload] at hrun
      exact .inl ⟨e, rfl, (Except.error.inj hrun).symm⟩
    | ok m =>
      simp only [hload] at hrun
      split at hrun
      · simp at hrun
      next hne => exact .inr ⟨m, rfl, hne, (Except.error.inj hrun).symm⟩
  refine ⟨fun m hm => ⟨Model.text_of_load hm,
    Model.checkText_of_text_eq (Model.text_of_load hm)⟩, fun files i f hcheck hrun => ⟨?_, ?_⟩⟩
  · intro line expected written
    cases hd : loadDialect files i.config with
    | error e =>
      have hf : i.run files = .error e := by simp [Invocation.run, hd, bind, Except.bind]
      rw [hf] at hrun
      rw [← Except.error.inj hrun]
      exact loadDialect_ne_roundTripMismatch hd line expected written
    | ok d' =>
      cases hs : files i.path with
      | none =>
        have hf : i.run files = .error (.model i.path) := by
          simp [Invocation.run, hd, hs, bind, Except.bind, throw, throwThe,
            MonadExceptOf.throw]
        rw [hf] at hrun
        rw [← Except.error.inj hrun]
        simp
      | some text =>
        rcases hfails hcheck hrun hd hs with ⟨e, -, rfl⟩ | ⟨m, -, -, rfl⟩ <;> simp
  · exact fun hd hs => hfails hcheck hrun hd hs

theorem tank_text_and_check : ∃ m, Model.load .standard Model.tank = .ok m ∧
    m.text = Model.tank ∧ m.checkText Model.tank = .ok () := by
  obtain ⟨m, hm⟩ := Model.tank_loads
  exact ⟨m, hm, (loaded_text_and_check .standard Model.tank).1 m hm⟩

end Command

end StockFlow
