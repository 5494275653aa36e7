import StockFlow.Proofs.Authored
import StockFlow.Proofs.Loading

/-! The call whose arguments are taken: the first one of the function. Its arguments are read off the
tokens between its parenthesis and the delimiter that ends it. A placeholder has no parents but those
that are named there. -/
namespace StockFlow

namespace Token

/-- How many delimiters are open after the tokens, if none of them ends more than was opened. -/
def nest (depth : Nat) (tokens : List Token) : Option Nat := tokens.foldlM enter depth

theorem nest_cons (depth : Nat) (token : Token) (tokens : List Token) :
    nest depth (token :: tokens) = (token.enter depth).bind fun depth => nest depth tokens :=
  List.foldlM_cons

theorem nest_append (depth : Nat) (tokens more : List Token) :
    nest depth (tokens ++ more) = (nest depth tokens).bind fun depth => nest depth more :=
  List.foldlM_append

theorem nest_of_pass {depth depth' : Nat} {tokens : List Token}
    (h : tokens.foldlM pass depth = some depth') : nest depth tokens = some depth' := by
  induction tokens generalizing depth with
  | nil => exact h
  | cons token tokens ih =>
    rw [List.foldlM_cons] at h
    obtain ⟨next, hnext, h⟩ := Option.bind_eq_some_iff.1 h
    rw [nest_cons, (pass_eq_some hnext).2]
    exact ih h

/-- Arguments with commas between them end all that they open. -/
theorem nest_intercalate {groups : List (List Token)} (h : ∀ group ∈ groups, IsArgument group) :
    nest 0 (List.intercalate [.comma] groups) = some 0 := by
  induction groups with
  | nil => rfl
  | cons group groups ih =>
    obtain ⟨hgroup, hgroups⟩ := List.forall_mem_cons.1 h
    cases groups with
    | nil => simpa using nest_of_pass hgroup
    | cons next groups =>
      rw [List.intercalate_cons_cons, List.append_assoc, nest_append, nest_of_pass hgroup]
      exact ih hgroups

end Token

namespace Call

open Piece

/-! ### The tokens of a call -/

/-- Tokens around a call: those before it, its name, those that its parentheses enclose, the delimiter
that ends it, and those after it. -/
structure Frame where
  before : List Token
  name : Text
  inside : List Token
  close : Token
  after : List Token

namespace Frame

/-- What stands before the arguments. -/
def head (c : Frame) : List Token := c.before ++ [.ident c.name, .lparen]

def tokens (c : Frame) : List Token := c.head ++ (c.inside ++ c.close :: c.after)

theorem tokens_eq (c : Frame) : c.tokens =
    c.before ++ .ident c.name :: .lparen :: (c.inside ++ c.close :: c.after) := by
  simp [tokens, head]

/-- The call is the first one of the function among the tokens. What it encloses ends all that it
opens, and the delimiter after it ends the call. -/
structure IsFirst (function : Text) (tokens : List Token) (c : Frame) : Prop where
  tokens_eq : c.tokens = tokens
  named : canonicalName c.name = function
  first : ∀ before name after, tokens = before ++ .ident name :: .lparen :: after →
    canonicalName name = function → c.before.length ≤ before.length
  nested : Token.nest 0 c.inside = some 0
  closes : c.close.Closes

end Frame

/-! ### The pieces of a call -/

theorem Separated.tokens_eq {ps : List Piece} {groups : List (List Piece)}
    (h : Separated ps groups) : ps.filterMap token? =
    List.intercalate [.comma] (groups.map (List.filterMap token?)) := by
  induction h with
  | last group => simp
  | @cons group s ps groups h ih =>
    have hcomma : (Piece.lexeme s .comma :: ps).filterMap token? =
        .comma :: ps.filterMap token? := rfl
    obtain ⟨next, groups, rfl⟩ := h.exists_cons
    rw [List.filterMap_append, hcomma, ih, List.map_cons, List.map_cons, List.map_cons,
      List.intercalate_cons_cons]
    simp

/-- The arguments that groups of pieces make, without the blanks around them. A single group with
nothing but blanks in it makes none. -/
inductive Trims : List (List Piece) → List Text → Prop where
  | empty {group : List Piece} : Text.trim (group.flatMap source) = [] → Trims [group] []
  | single {group : List Piece} : Text.trim (group.flatMap source) ≠ [] →
      Trims [group] [Text.trim (group.flatMap source)]
  | several (group next : List Piece) (groups : List (List Piece)) :
      Trims (group :: next :: groups)
        ((group :: next :: groups).map fun group => Text.trim (group.flatMap source))

theorem trims_trimmed (first : List Piece) (others : List (List Piece)) : Trims (first :: others)
    (trimmed (first.flatMap source, others.map (List.flatMap source))) := by
  cases others with
  | nil =>
    by_cases hn : Text.trim (first.flatMap source) = []
    · have hempty : trimmed (first.flatMap source, []) = [] := if_pos hn
      exact hempty ▸ .empty hn
    · have hsingle : trimmed (first.flatMap source, []) = [Text.trim (first.flatMap source)] :=
        if_neg hn
      exact hsingle ▸ .single hn
  | cons next groups =>
    have hseveral := Trims.several first next groups
    simpa [trimmed, Function.comp_def] using hseveral

theorem tokens_of_afterParen? {ps inside : List Piece} (h : afterParen? ps = some inside) :
    ps.filterMap token? = .lparen :: inside.filterMap token? := by
  fun_induction afterParen? ps with
  | case1 s ps ih => exact ih h
  | case2 s ps =>
    obtain rfl := Option.some.inj h
    rfl
  | case3 => simp at h

/-- The search stops at the first name of the function that a parenthesis follows. -/
theorem exists_of_find? {function : Text} {offset start : Nat} {ps inside : List Piece}
    (h : find? function offset ps = some (start, inside)) : ∃ before name,
      ps.filterMap token? = before ++ .ident name :: .lparen :: inside.filterMap token? ∧
      canonicalName name = function ∧
      ∀ earlier other after, ps.filterMap token? = earlier ++ .ident other :: .lparen :: after →
        canonicalName other = function → before.length ≤ earlier.length := by
  induction ps generalizing offset with
  | nil => simp [find?] at h
  | cons p ps ih =>
    cases p with
    | gap s => exact @ih (offset + s.byteSize) h
    | lexeme s token =>
      have hfurther {offset : Nat} (hfind : find? function offset ps = some (start, inside))
          (hskip : ∀ name after, token = .ident name → canonicalName name = function →
            ps.filterMap token? ≠ .lparen :: after) :
          ∃ before name, token :: ps.filterMap token? =
              before ++ .ident name :: .lparen :: inside.filterMap token? ∧
            canonicalName name = function ∧ ∀ earlier other after,
              token :: ps.filterMap token? = earlier ++ .ident other :: .lparen :: after →
              canonicalName other = function → before.length ≤ earlier.length := by
        obtain ⟨before, name, htokens, hname, hfirst⟩ := ih hfind
        refine ⟨token :: before, name, congrArg (List.cons token) htokens, hname, ?_⟩
        intro earlier other after heq hother
        cases earlier with
        | nil =>
          obtain ⟨hother', hafter⟩ := List.cons.inj heq
          exact absurd hafter (hskip other after hother' hother)
        | cons t earlier =>
          exact Nat.succ_le_succ (hfirst earlier other after (List.cons.inj heq).2 hother)
      simp only [find?, Piece.token?] at h
      split at h
      next name hname =>
        obtain rfl := Option.some.inj hname
        split at h
        next hfunction =>
          split at h
          next hinside =>
            obtain ⟨-, rfl⟩ := Prod.mk.inj (Option.some.inj h)
            refine ⟨[], name, ?_, hfunction, fun _ _ _ _ _ => Nat.zero_le _⟩
            exact congrArg (List.cons (Token.ident name)) (tokens_of_afterParen? hinside)
          next hnone =>
            refine hfurther h fun _ after _ _ hafter => ?_
            obtain ⟨inside', hinside'⟩ := afterParen?_of_tokens hafter
            simp [hnone] at hinside'
        next hfunction =>
          refine hfurther h fun other _ hother hname => ?_
          exact absurd (Token.ident.inj hother ▸ hname) hfunction
      next hident =>
        exact hfurther h fun other _ hother => absurd (congrArg some hother) (hident other)

/-- A call as pieces: those through its parenthesis, those that it encloses, in groups, the source of
the delimiter that ends it, and the pieces after it. -/
structure Split where
  head : List Piece
  body : List Piece
  groups : List (List Piece)
  source : Text
  after : List Piece

/-- The call is the first one of the function in the equation, and its groups are the arguments. -/
structure Split.Gives (p : Split) (c : Frame) (equation function : Text) (args : List Text) :
    Prop where
  isFirst : c.IsFirst (canonicalName function) (Token.ofEquation equation)
  scan_eq : scan equation = p.head ++ (p.body ++ .lexeme p.source c.close :: p.after)
  head_eq : p.head.filterMap token? = c.head
  inside_eq : p.body.filterMap token? = c.inside
  separated : Separated p.body p.groups
  isArgument : ∀ group ∈ p.groups, Token.IsArgument (group.filterMap token?)
  trims : Trims p.groups args

/-- Arguments are taken of the first call of the function, and are all that it encloses. -/
theorem exists_split {equation function : Text} {args : List Text}
    (h : arguments equation function = .ok args) :
    ∃ (p : Split) (c : Frame), p.Gives c equation function args := by
  unfold arguments at h
  split at h
  · simp at h
  next start ps hfind =>
    split at h
    · simp at h
    next parts hsplit =>
      obtain rfl := Except.ok.inj h
      obtain ⟨t, ts⟩ := parts
      obtain ⟨first, others, hlists, rfl, rfl⟩ := lists_of_split? hsplit
      obtain ⟨before, name, htokens, hname, hfirst⟩ := exists_of_find? hfind
      obtain ⟨head, hhead⟩ := find?_suffix hfind
      obtain ⟨body, s, close, after, rfl, hcloses, hbody, hargument, harguments⟩ :=
        hlists.exists_body
      have hall : ∀ group ∈ first :: others, Token.IsArgument (group.filterMap token?) :=
        List.forall_mem_cons.2 ⟨hargument, harguments⟩
      have hequation : Token.ofEquation equation = before ++ [.ident name, .lparen] ++
          (body.filterMap token? ++ close :: after.filterMap token?) := by
        rw [Token.ofEquation, htokens]
        simp [token?]
      refine ⟨⟨head, body, first :: others, s, after⟩, ⟨before, name, body.filterMap token?, close,
        after.filterMap token?⟩, ⟨hequation.symm, hname, hfirst, ?_, hcloses⟩, hhead.symm, ?_, rfl,
        hbody, hall, trims_trimmed first others⟩
      · simp only [hbody.tokens_eq]
        exact Token.nest_intercalate (by simpa using hall)
      · rw [← hhead, List.filterMap_append] at htokens
        refine List.append_cancel_right (htokens.trans ?_)
        simp [Frame.head]

theorem Split.Gives.isRun {p : Split} {c : Frame} {equation function : Text} {args : List Text}
    (h : p.Gives c equation function args) : ∀ group ∈ p.groups, IsRun (scan equation) group :=
  fun group hg => h.scan_eq ▸ (h.separated.isRun (endsArgument_of_closes h.isFirst.closes) p.after
    group hg).append p.head

/-- What a call encloses has the tokens that its arguments have by themselves, with a comma between
two of them. -/
theorem exists_frame {equation function : Text} {args : List Text}
    (h : arguments equation function = .ok args) : ∃ c : Frame,
      c.IsFirst (canonicalName function) (Token.ofEquation equation) ∧
      c.inside = List.intercalate [.comma] (args.map Token.ofEquation) := by
  obtain ⟨p, c, hp⟩ := exists_split h
  have hgroups : ∀ group ∈ p.groups,
      Token.ofEquation (Text.trim (group.flatMap source)) = group.filterMap token? :=
    fun group hg => ofEquation_trim_run (hp.isRun group hg)
  refine ⟨c, hp.isFirst, ?_⟩
  rw [← hp.inside_eq, hp.separated.tokens_eq]
  have htrims := hp.trims
  generalize p.groups = groups at hgroups htrims
  cases htrims with
  | @empty group hempty =>
    have hnone := hgroups group (.head _)
    rw [hempty] at hnone
    simp [← hnone, Token.ofEquation]
  | @single group hne => simp [hgroups group (.head _)]
  | several group next groups =>
    rw [List.map_map]
    exact congrArg _ (List.map_congr_left fun group hg => (hgroups group hg).symm)

end Call

/-! ### Names in the arguments and around them -/

namespace Reference

theorem mem_ofTokens_intercalate {d : Dialect} {groups : List (List Token)} {k : Text} :
    k ∈ ofTokens d (List.intercalate [.comma] groups) ↔ ∃ group ∈ groups, k ∈ ofTokens d group := by
  induction groups with
  | nil => simp [ofTokens]
  | cons group groups ih =>
    cases groups with
    | nil => simp
    | cons next groups =>
      rw [List.intercalate_cons_cons, List.append_assoc, ofTokens_append (by simp),
        List.mem_append, List.exists_mem_cons_iff, ← ih]
      rfl

/-- A name at the end of the arguments is followed by what ends the call, and a parenthesis at their
beginning by what opens it, so a name is a reference in the whole where it is one in its part. -/
theorem ofTokens_frame (d : Dialect) {c : Call.Frame} (hc : c.close.Closes) :
    ofTokens d c.tokens = ofTokens d c.head ++ (ofTokens d c.inside ++ ofTokens d c.after) := by
  have hclose : c.close.key = none ∧ (c.close :: c.after).head? ≠ some .lparen := by
    rcases hc with hc | hc <;> simp [hc, Token.key]
  have hhead : ofTokens d c.head = ofTokens d c.before ++ ofTokens d [.ident c.name, .lparen] :=
    ofTokens_append (by simp)
  have hcall (rest : List Token) : ofTokens d (.ident c.name :: .lparen :: rest) =
      ofTokens d [.ident c.name, .lparen] ++ ofTokens d rest := by
    have hnext : isCall d (.ident c.name) (.lparen :: rest) =
        isCall d (.ident c.name) [.lparen] := rfl
    simp only [ofTokens, Token.key, hnext]
    split <;> rfl
  have hrest : ofTokens d (c.inside ++ c.close :: c.after) =
      ofTokens d c.inside ++ ofTokens d c.after := by
    rw [ofTokens_append hclose.2, ofTokens.eq_2 d c.close, hclose.1]
  rw [c.tokens_eq, ofTokens_append (by simp), hcall, hrest, hhead, List.append_assoc]

end Reference

/-- The parents are the names to which the equation refers. A placeholder leaves no equation, and its
parents are the names between the parentheses of the first call of its function: what the text refers
to before or after them is lost unless it is named between them too. -/
theorem parents_of_dependencies {d : Dialect} {operator : Operator} {t equation : Text}
    {parents : NameSet} (hop : operator ≠ .subscriptRange)
    (h : dependencies d operator t = .ok (equation, parents)) :
    (d.callsPlaceholder t = false →
      equation = t ∧ ∀ k, k ∈ parents.items ↔ k ∈ references d t) ∧
    (d.callsPlaceholder t = true → equation = [] ∧ ∃ c : Call.Frame,
      c.IsFirst (canonicalName d.placeholder.text) (Token.ofEquation t) ∧
      (∀ k, k ∈ parents.items ↔ k ∈ Reference.ofTokens d c.inside) ∧
      ∀ k, k ∈ references d t ↔
        k ∈ Reference.ofTokens d c.head ∨ k ∈ parents.items ∨ k ∈ Reference.ofTokens d c.after) := by
  cases dependencies_eq_ok_iff.1 h with
  | range => exact absurd rfl hop
  | equation _ hcalls =>
    exact ⟨fun _ => ⟨rfl, fun k => Catalog.mem_ofList⟩, fun h => absurd (hcalls.symm.trans h) (by simp)⟩
  | @placeholder _ args _ hcalls hargs =>
    refine ⟨fun h => absurd (hcalls.symm.trans h) (by simp), fun _ => ?_⟩
    obtain ⟨c, hc, hinside⟩ := Call.exists_frame hargs
    have hparents (k : Text) : k ∈ (Catalog.ofList (args.flatMap (references d)) : NameSet).items ↔
        k ∈ Reference.ofTokens d c.inside := by
      rw [Catalog.mem_ofList, hinside, Reference.mem_ofTokens_intercalate]
      simp [references]
    refine ⟨rfl, c, hc, hparents, fun k => ?_⟩
    rw [references, List.mem_eraseDups, ← hc.tokens_eq, Reference.ofTokens_frame d hc.closes,
      List.mem_append, List.mem_append, hparents]

/-- A placeholder with a term after its call. -/
def placeholderSum : Text := "A FUNCTION OF(a) + b".toList

theorem placeholderSum_depends : ∃ parents,
    dependencies .standard .equals placeholderSum = .ok ([], parents) ∧ parents.items = [['a']] ∧
      Dialect.standard.callsPlaceholder placeholderSum = true ∧
      references .standard placeholderSum = [['a'], ['b']] := by
  have hcalls : Dialect.standard.callsPlaceholder placeholderSum = true := by decide
  have hargs : Call.arguments placeholderSum Dialect.standard.placeholder.text = .ok [['a']] := by
    rw [Call.arguments, Piece.scan_eq_scanUpTo]
    rfl
  have hargument : [['a']].flatMap (references .standard) = [['a']] := by
    rw [List.flatMap_singleton, references, Token.ofEquation, Piece.scan_eq_scanUpTo]
    rfl
  have hwhole : references .standard placeholderSum = [['a'], ['b']] := by
    rw [references, Token.ofEquation, Piece.scan_eq_scanUpTo]
    rfl
  have hdepends : Depends .standard placeholderSum .equals [] _ :=
    .placeholder (by decide) hcalls hargs
  rw [hargument] at hdepends
  exact ⟨_, dependencies_eq_ok_iff.2 hdepends, rfl, hcalls, hwhole⟩

/-- The sum is a placeholder, and its only parent is the argument. -/
theorem placeholderSum_parents : Operator.equals ≠ .subscriptRange ∧ ∃ parents,
    dependencies .standard .equals placeholderSum = .ok ([], parents) ∧
      Dialect.standard.callsPlaceholder placeholderSum = true ∧ parents.items = [['a']] ∧
      ∃ c : Call.Frame, c.IsFirst (canonicalName Dialect.standard.placeholder.text)
          (Token.ofEquation placeholderSum) ∧
        (∀ k, k ∈ parents.items ↔ k ∈ Reference.ofTokens .standard c.inside) ∧
        ∀ k, k ∈ references .standard placeholderSum ↔
          k ∈ Reference.ofTokens .standard c.head ∨ k ∈ parents.items ∨
            k ∈ Reference.ofTokens .standard c.after := by
  have hop : Operator.equals ≠ .subscriptRange := by decide
  obtain ⟨parents, hdepends, hparents, hcalls, -⟩ := placeholderSum_depends
  obtain ⟨-, c, hframe⟩ := (parents_of_dependencies hop hdepends).2 hcalls
  exact ⟨hop, parents, hdepends, hcalls, hparents, c, hframe⟩

/-- The second term of the sum is not among the parents. -/
theorem not_all_references_kept : ¬ ∀ (d : Dialect) (operator : Operator) (t equation : Text)
    (parents : NameSet), operator ≠ .subscriptRange →
      dependencies d operator t = .ok (equation, parents) →
      ∀ k, k ∈ parents.items ↔ k ∈ references d t := by
  intro hkept
  obtain ⟨parents, hdepends, hparents, -, hreferences⟩ := placeholderSum_depends
  have hterm := hkept .standard .equals placeholderSum [] parents (by decide) hdepends ['b']
  rw [hparents, hreferences] at hterm
  simp at hterm

end StockFlow
