import StockFlow.Proofs.Refusals
import StockFlow.Proofs.Reloading

/-! Comments of a model that is written and loaded again. The block of an edited variable is found
again among the parts of the new text, and what is read from it is what is read from the lines that
were written. Its comment is then the one of the edited model, unless that ends with a backslash: the
line with the bar follows it, and a line that ends with a backslash is continued. -/
namespace StockFlow

open Piece (IsName)

namespace Model

variable {d : Dialect} {source : Text} {m : Model}

/-- The definition of an edited variable is read from the lines that were written of it. -/
theorem read_of_reloaded {current reloaded : Model} (h : load d source = .ok m)
    (hm : Evolved m current) (hw : current.IsWritable) {k : Text} {r : Record}
    (hr : current.graph.find? k = some r) (he : k ∈ current.edited.items)
    (hreload : load d current.text = .ok reloaded) : ∃ start s,
      Block.read d ⟨start, Block.write d current.document.ending r⟩ = .ok s ∧
        (reloaded.graph.find? s.name).map Record.authored = some s.authored := by
  have hdialect : current.dialect = d := hm.dialect.trans (dialect_of_load h)
  have hdeclared : ∃ s, m.graph.find? k = some s :=
    Option.isSome_iff_exists.1 (by rw [← hm.names, hr]; rfl)
  obtain ⟨sections, chunks, segments, records, hreads, -, rfl, lines, hsections, hparts⟩ :=
    parts_of_text h hm hw
  -- the block that declares the variable in the source
  obtain ⟨old, hold⟩ := hdeclared
  obtain ⟨s, hs, heq⟩ := Graph.exists_of_rebuilt hold
  have hname : s.name = k := (Record.name_eq_of_authored heq).trans (Catalog.key_of_find? hold)
  obtain ⟨⟨start, block⟩, hb, hread⟩ := hreads.exists_block s hs
  have hwritten : current.rewrite (.block block) =
      .block (Block.write d current.document.ending r) := by
    subst hdialect
    rw [rewrite_block hread, hname, writtenLines_of_edited hr he]
  have hchunk : .block (Block.write d current.document.ending r) ∈ chunks.map current.rewrite :=
    List.mem_map.2 ⟨_, mem_of_mem_assemble hb, hwritten⟩
  -- the block that stands for it in the new text
  obtain ⟨start', hpart⟩ := exists_mem_assemble hchunk 1 []
  obtain ⟨sections', parts', segments', records', hsections', hparts', hreads', hnodup, rfl⟩ :=
    load_eq_ok_iff.1 hreload
  obtain rfl := Except.ok.inj (hsections.symm.trans hsections')
  obtain rfl := Except.ok.inj (hparts.symm.trans hparts')
  obtain ⟨t, ht, hread'⟩ := hreads'.exists_record _ hpart
  refine ⟨start', t, hread', ?_⟩
  rw [Graph.authored_rebuilt, find?_name_of_mem hnodup ht]
  rfl

/-- An edit that changes a model leaves one variable to be written anew. -/
theorem edited_of_edit {m' : Model} (h : load d source = .ok m) {k : Text} {e : Edit}
    (he : m.edit k e = .ok m') (hne : m' ≠ m) : ∀ name, name ∈ m'.edited.items ↔ name = k := by
  rcases edit_cases he with rfl | ⟨current, r, graph, -, -, -, -, rfl⟩
  · exact absurd rfl hne
  · intro name
    simp [Catalog.mem_insert, edited_of_load h]

/-- After its comment has been edited, a variable has the given text on one line for a comment. If
that changes nothing, the model is loaded again as it is. Otherwise the comment comes back unless it
ends with a backslash, provided that the equation does not start with a tilde and that the line with
the name and the operator is no boundary; and the text can be loaded, provided that the parents of a
variable without an equation can be written. -/
theorem edited_comment_reloaded {m' : Model} {k comment : Text} (h : load d source = .ok m)
    (he : m.edit k ⟨none, none, some comment⟩ = .ok m') :
    ∃ r, m'.graph.find? k = some r ∧ r.comment = Edit.oneLine comment ∧
      (m' = m → load d m'.text = .ok m') ∧
      (m' ≠ m → r.equation.head? ≠ some '~' →
        d.isBoundaryLine (r.name ++ r.operator.symbol) = false →
        (∀ reloaded, load d m'.text = .ok reloaded →
          ((reloaded.graph.find? k).map Record.comment = some r.comment ↔
            r.comment.getLast? ≠ some '\\')) ∧
        (r.equation ≠ [] ∨ r.parents.items = [] ∨ IsName d.placeholder.text →
          ∃ reloaded, load d m'.text = .ok reloaded)) := by
  obtain ⟨current, edited, -, happly, hauthored⟩ := authored_of_edit he
  obtain ⟨r, hr, heq⟩ := Option.map_eq_some_iff.1 hauthored
  have hcomment : r.comment = Edit.oneLine comment := by
    obtain ⟨_, _, -, rfl⟩ := Edit.apply_cases happly
    exact congrArg Record.comment heq
  refine ⟨r, hr, hcomment, ?_, fun hne htilde hinside => ?_⟩
  · rintro rfl
    rwa [text_of_load h]
  have hafter : m.after [(k, ⟨none, none, some comment⟩)] = m' := by
    simp [after, step, he, Except.toOption]
  have hm : Evolved m m' := (evolved_of_load h).edit he
  have hdialect : m'.dialect = d := hm.dialect.trans (dialect_of_load h)
  have hedited := edited_of_edit h he hne
  -- the edited variable is the only one that is written anew
  have honly {k' : Text} {s : Record} (hs : m'.graph.find? k' = some s)
      (hk : k' ∈ m'.edited.items) : s = r := by
    rw [(hedited k').1 hk, hr] at hs
    exact (Option.some.inj hs).symm
  have hw : m'.IsWritable := by
    rw [← hafter] at honly ⊢
    exact isWritable_after h _ fun hs hk => honly hs hk ▸ hinside
  have hwritten : IsAuthored d r := hdialect ▸ hm.authored hr
  refine ⟨fun reloaded hreload => ?_, fun hlists => ?_⟩
  · obtain ⟨start, s, hread, hs⟩ :=
      read_of_reloaded h hm hw hr ((hedited k).2 rfl) hreload
    rw [Block.read_write hwritten _ start htilde] at hread
    split at hread
    · simp at hread
    obtain rfl := Except.ok.inj hread
    have hname : r.name = k := Catalog.key_of_find? hr
    have hcomments := congrArg (Option.map Record.comment) hs
    rw [Option.map_map, hname] at hcomments
    rw [show (reloaded.graph.find? k).map Record.comment =
      some (Line.continued r.comment) from hcomments, Option.some_inj]
    exact ⟨fun heq hlast => Block.continued_ne hlast heq, Line.continued_eq_self⟩
  · have hreadable : m'.IsReadable := by
      rw [← hafter] at honly ⊢
      refine isReadable_after h _ fun hs hk _ => ?_
      rw [honly hs hk]
      exact Block.listsParents_of_isAuthored hwritten hlists
    obtain ⟨reloaded, hload, -⟩ := exists_load_text h hm hw hreadable
    exact ⟨reloaded, hload⟩

/-- A comment with all that could end it, or the block, or the variables. -/
def markedComment : Text := " see | below ~ \"a\\\n\n***\n:MACRO: m\nlevel = 0 |".toList

theorem tank_comment_reloaded : ∃ m m' reloaded, load .standard tank = .ok m ∧
    m.edit "level".toList ⟨none, none, some markedComment⟩ = .ok m' ∧ m' ≠ m ∧
    load .standard m'.text = .ok reloaded ∧
    (reloaded.graph.find? "level".toList).map Record.comment =
      some (Edit.oneLine markedComment) := by
  obtain ⟨m, hm⟩ := tank_loads
  have hedit : (load .standard tank).toOption.bind (fun m =>
      (m.edit "level".toList ⟨none, none, some markedComment⟩).toOption.map fun m' =>
        (m'.edited.items, (m'.graph.find? "level".toList).map fun r =>
          (r.equation.head?, Dialect.standard.isBoundaryLine (r.name ++ r.operator.symbol),
            r.comment.getLast?))) = some (["level".toList], some (some 'I', false, some '|')) := by
    decide +kernel
  rw [hm] at hedit
  obtain ⟨m', hm', hfacts⟩ := Option.map_eq_some_iff.1 hedit
  have he := eq_ok_of_toOption hm'
  obtain ⟨hedited, hfacts⟩ := Prod.mk.inj hfacts
  have hne : m' ≠ m := by
    rintro rfl
    rw [edited_of_load hm] at hedited
    simp [Catalog.empty] at hedited
  obtain ⟨r, hr, hcomment, -, hchanged⟩ := edited_comment_reloaded hm he
  simp only [hr, Option.map_some, Option.some_inj, Prod.mk.injEq] at hfacts
  obtain ⟨hequation, hinside, hlast⟩ := hfacts
  obtain ⟨hkept, hloads⟩ := hchanged hne (by simp [hequation]) hinside
  obtain ⟨reloaded, hreload⟩ := hloads (.inr (.inr isName_standard))
  refine ⟨m, m', reloaded, hm, he, hne, hreload, ?_⟩
  rw [← hcomment]
  exact (hkept reloaded hreload).2 (by simp [hlast])

theorem not_all_comments_reloaded : ¬ ∀ (d : Dialect) (source : Text) (m m' reloaded : Model)
    (k comment : Text), load d source = .ok m → m.edit k ⟨none, none, some comment⟩ = .ok m' →
      load d m'.text = .ok reloaded →
      (reloaded.graph.find? k).map Record.comment = (m'.graph.find? k).map Record.comment := by
  intro hall
  have hlost : (load .standard tank).toOption.bind (fun m =>
      (m.edit "level".toList ⟨none, none, some "see c:\\".toList⟩).toOption.bind fun m' =>
        (load .standard m'.text).toOption.map fun reloaded =>
          decide ((reloaded.graph.find? "level".toList).map Record.comment =
            (m'.graph.find? "level".toList).map Record.comment)) = some false := by
    decide +kernel
  obtain ⟨m, hm, hlost⟩ := Option.bind_eq_some_iff.1 hlost
  obtain ⟨m', hm', hlost⟩ := Option.bind_eq_some_iff.1 hlost
  obtain ⟨reloaded, hreloaded, hlost⟩ := Option.map_eq_some_iff.1 hlost
  exact of_decide_eq_false hlost (hall .standard tank m m' reloaded _ _ (eq_ok_of_toOption hm)
    (eq_ok_of_toOption hm') (eq_ok_of_toOption hreloaded))

end Model

end StockFlow
