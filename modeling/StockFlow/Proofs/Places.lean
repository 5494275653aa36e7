import StockFlow.Proofs.FirstCall

/-! Tokens with their places. Where a text is cut between two of its pieces, each part has the tokens
that the text has there, at places that count from the cut. The arguments of a call are cut out of an
equation in this way, and with the commas between them they are all that the call encloses. -/
namespace StockFlow

namespace Token

/-- The same token with `n` more bytes before it. -/
def Located.shift (n : Nat) (l : Located) : Located := ⟨n + l.start, l.token, n + l.stop⟩

theorem locate_add (n offset : Nat) (ps : List Piece) :
    locate (n + offset) ps = (locate offset ps).map (Located.shift n) := by
  induction ps generalizing offset with
  | nil => rfl
  | cons p ps ih => cases p <;> simp [locate, Located.shift, Nat.add_assoc, ih]

theorem locate_append (offset : Nat) (ps qs : List Piece) : locate offset (ps ++ qs) =
    locate offset ps ++ locate (offset + Text.byteSize (ps.flatMap Piece.source)) qs := by
  induction ps generalizing offset with
  | nil => rfl
  | cons p ps ih => cases p <;> simp [locate, Piece.source, Nat.add_assoc, ih]

theorem map_token_locate (offset : Nat) (ps : List Piece) :
    (locate offset ps).map Located.token = ps.filterMap Piece.token? := by
  induction ps generalizing offset with
  | nil => rfl
  | cons p ps ih =>
    cases p with
    | gap s => exact ih _
    | lexeme s token => exact congrArg (List.cons token) (ih _)

theorem locate_eq_nil {ps : List Piece} (h : ps.filterMap Piece.token? = []) (offset : Nat) :
    locate offset ps = [] :=
  List.map_eq_nil_iff.1 ((map_token_locate offset ps).trans h)

theorem locate_scan (offset : Nat) (t : Text) :
    locate offset (Piece.scan t) = (located t).map (Located.shift offset) :=
  locate_add offset 0 _

/-! ### Cuts -/

/-- The equation is the text with others around it, and has just the tokens of these three, each at
its place in its part after what stands before the part. -/
structure IsCut (equation before t after : Text) : Prop where
  eq : equation = before ++ t ++ after
  located_eq : located equation = located before ++ (located t).map (.shift before.byteSize) ++
    (located after).map (.shift (before ++ t).byteSize)

theorem isCut_of_scan {equation : Text} {ps qs rs : List Piece}
    (h : Piece.scan equation = ps ++ qs ++ rs) :
    IsCut equation (ps.flatMap Piece.source) (qs.flatMap Piece.source)
      (rs.flatMap Piece.source) := by
  have hps : Piece.scan equation = ps ++ (qs ++ rs) := h.trans (List.append_assoc ps qs rs)
  refine ⟨?_, ?_⟩
  · rw [← Piece.scan_source equation, h, List.flatMap_append, List.flatMap_append]
  · rw [located, located, h, Piece.scan_of_append hps, locate_append, locate_append,
      ← locate_scan, ← locate_scan, Piece.scan_stretch h, Piece.scan_suffix h]
    simp

/-- Arguments and their tokens, after the tokens that stand earlier in the equation: each argument is
cut out of the equation after these and has its tokens there, and a comma follows each but the
last. -/
inductive Placed (equation : Text) : List Located → List Text → List Located → Prop where
  | none (earlier : List Located) : Placed equation earlier [] []
  | last {before a after : Text} : IsCut equation before a after →
      Placed equation (located before) [a] ((located a).map (.shift before.byteSize))
  | cons {before a after next : Text} {args : List Text} {start stop : Nat}
      {tokens : List Located} : IsCut equation before a after →
      Placed equation (located before ++ (located a).map (.shift before.byteSize) ++
        [⟨start, .comma, stop⟩]) (next :: args) tokens →
      Placed equation (located before) (a :: next :: args)
        ((located a).map (.shift before.byteSize) ++ ⟨start, .comma, stop⟩ :: tokens)

open Piece Call

/-- The text of a group without the blanks around it is cut out of the equation, with all tokens of
the group. -/
theorem exists_isCut {equation : Text} {ps group qs : List Piece} {p : Piece}
    (h : scan equation = ps ++ (group ++ p :: qs)) (hp : EndsArgument p) : ∃ before after,
      IsCut equation before (Text.trim (group.flatMap source)) after ∧
      located before = locate 0 ps ∧
      locate (Text.byteSize (ps.flatMap source)) group =
        (located (Text.trim (group.flatMap source))).map (.shift before.byteSize) := by
  obtain ⟨before, after, hgroup, hbefore, hafter, hcut⟩ := exists_scan_between h hp
  refine ⟨(ps ++ before).flatMap source, (after ++ p :: qs).flatMap source, ?_, ?_, ?_⟩
  · have hcut := isCut_of_scan hcut
    rwa [scan_source] at hcut
  · rw [located, scan_of_append (hcut.trans (List.append_assoc _ _ _)), locate_append,
      locate_eq_nil hbefore, List.append_nil]
  · conv_lhs => rw [hgroup]
    rw [locate_append, locate_append, locate_eq_nil hbefore, locate_eq_nil hafter, locate_scan]
    simp

theorem placed_of_separated {equation : Text} {ps body qs : List Piece} {p : Piece}
    {groups : List (List Piece)} (h : Separated body groups) (hp : EndsArgument p)
    (hscan : scan equation = ps ++ (body ++ p :: qs)) :
    Placed equation (locate 0 ps) (groups.map fun group => Text.trim (group.flatMap source))
      (locate (Text.byteSize (ps.flatMap source)) body) := by
  induction h generalizing ps with
  | last group =>
    obtain ⟨before, after, hcut, hbefore, hlocate⟩ := exists_isCut hscan hp
    rw [hlocate, ← hbefore]
    exact .last hcut
  | @cons group s body groups h ih =>
    obtain ⟨next, others, rfl⟩ := h.exists_cons
    have hcomma : EndsArgument (.lexeme s .comma) := .inl rfl
    have hgroup : scan equation = ps ++ (group ++ .lexeme s .comma :: (body ++ p :: qs)) :=
      hscan.trans (by simp)
    obtain ⟨before, after, hcut, hbefore, hlocate⟩ := exists_isCut hgroup hcomma
    have hrest := @ih (ps ++ (group ++ [.lexeme s .comma])) (hscan.trans (by simp))
    rw [locate_append, locate_append, Nat.zero_add, hlocate, ← hbefore, ← List.append_assoc] at hrest
    rw [locate_append, hlocate, ← hbefore]
    refine .cons hcut ?_
    simpa [source, locate, Nat.add_assoc] using hrest

end Token

namespace Call

open Piece Token

theorem Trims.exists_group {groups : List (List Piece)} {args : List Text} (h : Trims groups args) :
    ∀ a ∈ args, ∃ group ∈ groups, a = Text.trim (group.flatMap source) := by
  intro a ha
  cases h with
  | empty => simp at ha
  | single => exact ⟨_, .head _, List.mem_singleton.1 ha⟩
  | several =>
    obtain ⟨group, hg, rfl⟩ := List.mem_map.1 ha
    exact ⟨group, hg, rfl⟩

theorem Split.Gives.placed {p : Split} {c : Frame} {equation function : Text} {args : List Text}
    (h : p.Gives c equation function args) :
    Placed equation (locate 0 p.head) args
      (locate (Text.byteSize (p.head.flatMap Piece.source)) p.body) := by
  have hplaced := placed_of_separated h.separated (endsArgument_of_closes h.isFirst.closes) h.scan_eq
  have hrun := h.isRun
  have hseparated := h.separated
  have htrims := h.trims
  generalize p.groups = groups at hplaced hrun hseparated htrims
  cases htrims with
  | @empty group hempty =>
    have hnone : group.filterMap token? = [] := by
      rw [← ofEquation_trim_run (hrun group (.head _)), hempty]
      simp [ofEquation]
    rw [hseparated.eq_of_singleton, locate_eq_nil hnone]
    exact .none _
  | single => exact hplaced
  | several => exact hplaced

end Call

open Piece Token Call

/-- The tokens that the first call of the function encloses are those of its arguments, taken by
themselves and put at their places, and the commas between these, which are all that stand outside
of the delimiters inside of the call. So whatever an argument refers to the equation refers to. -/
theorem located_arguments {equation function : Text} {args : List Text}
    (h : arguments equation function = .ok args) :
    ∃ (c : Frame) (head inside : List Located) (close : Located) (after : List Located),
      c.IsFirst (canonicalName function) (ofEquation equation) ∧
      located equation = head ++ (inside ++ close :: after) ∧
      head.map Located.token = c.head ∧ inside.map Located.token = c.inside ∧
      close.token = c.close ∧ Placed equation head args inside ∧
      (∀ a ∈ args, IsArgument (ofEquation a)) ∧
      ∀ d, ∀ a ∈ args, references d a ⊆ references d equation := by
  obtain ⟨p, c, hp⟩ := exists_split h
  have hgroup : ∀ a ∈ args, ∃ group ∈ p.groups, a = Text.trim (group.flatMap source) ∧
      IsRun (scan equation) group := fun a ha =>
    (hp.trims.exists_group a ha).imp fun group hg => ⟨hg.1, hg.2, hp.isRun group hg.1⟩
  obtain ⟨close, after, hclose, hlocated⟩ : ∃ close after, close.token = c.close ∧
      located equation = locate 0 p.head ++
        (locate (Text.byteSize (p.head.flatMap source)) p.body ++ close :: after) := by
    rw [located, hp.scan_eq, locate_append, locate_append, Nat.zero_add]
    exact ⟨_, _, rfl, rfl⟩
  refine ⟨c, _, _, close, after, hp.isFirst, hlocated, ?_, ?_, hclose, hp.placed, ?_, ?_⟩
  · rw [map_token_locate, hp.head_eq]
  · rw [map_token_locate, hp.inside_eq]
  · intro a ha
    obtain ⟨group, hg, rfl, hrun⟩ := hgroup a ha
    rw [ofEquation_trim_run hrun]
    exact hp.isArgument group hg
  · intro d a ha
    obtain ⟨group, hg, rfl, hrun⟩ := hgroup a ha
    exact references_subset hrun

/-- A call with commas in a quoted name, a subscript, a comment and a literal, and with an argument
that is empty. -/
def crowdedCall : Text :=
  "2 * f(\"a, (\" [x, y] :AND: \x7b,)\x7d 'b, ]', [(1e5, c d)], ) + f(e)".toList

def crowdedArguments : List Text :=
  ["\"a, (\" [x, y] :AND: \x7b,)\x7d 'b, ]'".toList, "[(1e5, c d)]".toList, []]

theorem crowdedCall_arguments : arguments crowdedCall ['F'] = .ok crowdedArguments := by
  rw [arguments, Piece.scan_eq_scanUpTo]
  rfl

theorem crowdedCall_located : arguments crowdedCall ['F'] = .ok crowdedArguments ∧
    ∃ (c : Frame) (head inside : List Located) (close : Located) (after : List Located),
      c.IsFirst (canonicalName ['F']) (ofEquation crowdedCall) ∧
      located crowdedCall = head ++ (inside ++ close :: after) ∧
      head.map Located.token = c.head ∧ inside.map Located.token = c.inside ∧
      close.token = c.close ∧ Placed crowdedCall head crowdedArguments inside := by
  obtain ⟨c, head, inside, close, after, hfirst, heq, hhead, hinside, hclose, hplaced, -, -⟩ :=
    located_arguments crowdedCall_arguments
  exact ⟨crowdedCall_arguments, c, head, inside, close, after, hfirst, heq, hhead, hinside, hclose,
    hplaced⟩

end StockFlow
