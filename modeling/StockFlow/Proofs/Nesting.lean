import StockFlow.Proofs.FirstCall
import StockFlow.Proofs.Refusals
import StockFlow.Proofs.RoundTrip
import StockFlow.Proofs.Tiling

/-! Calls by kinds of delimiters. What a call opens is counted, and the count does not see whether a
parenthesis or a bracket was opened. The arguments of a call are therefore taken just when something
ends the call, and its delimiters are nested by kind just when, besides, no parenthesis is closed by a
bracket there and no bracket by a parenthesis. -/
namespace StockFlow

namespace Token

/-! ### Delimiters by kind -/

/-- The delimiter that closes what the token opens. -/
def mate? : Token → Option Token
  | lparen => some rparen
  | lbracket => some rbracket
  | _ => none

instance (token : Token) : Decidable token.Closes :=
  inferInstanceAs (Decidable (token = rparen ∨ token = rbracket))

/-- What a token is to the delimiters around it. -/
inductive Kind (token : Token) : Prop where
  | opening {close : Token} (mate : token.mate? = some close) (closes : close.Closes)
      (enters : ∀ depth, token.enter depth = some (depth + 1)) : Kind token
  | closing (mate : token.mate? = none) (closes : token.Closes) (ends : token.enter 0 = none)
      (enters : ∀ depth, token.enter (depth + 1) = some depth) : Kind token
  | plain (mate : token.mate? = none) (inner : ¬ token.Closes)
      (enters : ∀ depth, token.enter depth = some depth) : Kind token

theorem kind (token : Token) : Kind token := by
  cases token with
  | lparen => exact .opening rfl (.inl rfl) fun _ => rfl
  | lbracket => exact .opening rfl (.inr rfl) fun _ => rfl
  | rparen => exact .closing rfl (.inl rfl) rfl fun _ => rfl
  | rbracket => exact .closing rfl (.inr rfl) rfl fun _ => rfl
  | _ => exact .plain rfl (by simp [Closes]) fun _ => rfl

theorem Closes.enter {token : Token} (h : token.Closes) (depth : Nat) :
    token.enter 0 = none ∧ token.enter (depth + 1) = some depth := by
  rcases h with rfl | rfl <;> exact ⟨rfl, rfl⟩

/-- Each delimiter is closed by one of its own kind, and each closing one closes another. -/
inductive WellNested : List Token → Prop where
  | nil : WellNested []
  | plain {token : Token} {tokens : List Token} : token.mate? = none → ¬ token.Closes →
      WellNested tokens → WellNested (token :: tokens)
  | group {opening closing : Token} {inside after : List Token} :
      opening.mate? = some closing → WellNested inside → WellNested after →
      WellNested (opening :: (inside ++ closing :: after))

/-- Among the tokens, a delimiter is closed by one of the other kind: what stands between the two ends
all that it opens. -/
def Mixed (tokens : List Token) : Prop :=
  ∃ before opening inside closing after, tokens = before ++ opening :: (inside ++ closing :: after) ∧
    opening.mate?.isSome ∧ nest 0 inside = some 0 ∧ closing.Closes ∧ opening.mate? ≠ some closing

theorem Mixed.surrounded {tokens : List Token} (h : Mixed tokens) (left right : List Token) :
    Mixed (left ++ tokens ++ right) := by
  obtain ⟨before, opening, inside, closing, after, rfl, hmixed⟩ := h
  exact ⟨left ++ before, opening, inside, closing, after ++ right, by simp, hmixed⟩

/-! ### Counting -/

theorem nest_add {depth depth' : Nat} {tokens : List Token} (h : nest depth tokens = some depth')
    (n : Nat) : nest (depth + n) tokens = some (depth' + n) := by
  induction tokens generalizing depth with
  | nil =>
    obtain rfl : depth = depth' := Option.some.inj h
    rfl
  | cons token tokens ih =>
    rw [nest_cons] at h ⊢
    obtain ⟨next, hnext, h⟩ := Option.bind_eq_some_iff.1 h
    have henter : token.enter (depth + n) = some (next + n) := by
      cases token.kind with
      | opening _ _ enters | plain _ _ enters =>
        obtain rfl := Option.some.inj ((enters depth).symm.trans hnext)
        exact (enters _).trans (congrArg some (by omega))
      | closing _ _ ends enters =>
        cases depth with
        | zero => simp [ends] at hnext
        | succ depth =>
          obtain rfl := Option.some.inj ((enters depth).symm.trans hnext)
          rw [Nat.add_right_comm, enters]
    rw [henter]
    exact ih h

/-- Only one delimiter ends what the tokens stand in. -/
theorem eq_of_nest {depth : Nat} {xs ys more more' : List Token} {close close' : Token}
    (hx : nest depth xs = some 0) (hy : nest depth ys = some 0) (hc : close.Closes)
    (hc' : close'.Closes) (h : xs ++ close :: more = ys ++ close' :: more') :
    xs = ys ∧ close = close' ∧ more = more' := by
  induction xs generalizing depth ys with
  | nil =>
    obtain rfl : depth = 0 := Option.some.inj hx
    cases ys with
    | nil => exact ⟨rfl, List.cons.inj h⟩
    | cons y ys =>
      obtain ⟨rfl, -⟩ := List.cons.inj h
      simp [nest_cons, (hc.enter 0).1] at hy
  | cons x xs ih =>
    rw [nest_cons] at hx
    obtain ⟨next, hnext, hx⟩ := Option.bind_eq_some_iff.1 hx
    cases ys with
    | nil =>
      obtain rfl : depth = 0 := Option.some.inj hy
      obtain ⟨rfl, -⟩ := List.cons.inj h
      simp [(hc'.enter 0).1] at hnext
    | cons y ys =>
      obtain ⟨rfl, htail⟩ := List.cons.inj h
      rw [nest_cons, hnext] at hy
      obtain ⟨rfl, hrest⟩ := ih hx hy htail
      exact ⟨rfl, hrest⟩

/-- Tokens after which less is open than before them end at some place what they stand in. -/
theorem exists_closing {depth outer outer' : Nat} {tokens : List Token}
    (h : nest (outer + 1 + depth) tokens = some outer') (hle : outer' ≤ outer) :
    ∃ inside close after, tokens = inside ++ close :: after ∧ nest depth inside = some 0 ∧
      close.Closes ∧ nest outer after = some outer' := by
  induction tokens generalizing depth with
  | nil =>
    have hdepth : outer + 1 + depth = outer' := Option.some.inj h
    omega
  | cons token tokens ih =>
    rw [nest_cons] at h
    obtain ⟨next, hnext, hrest⟩ := Option.bind_eq_some_iff.1 h
    have hfurther {depth' : Nat} (hinner : token.enter depth = some depth')
        (hnext : next = outer + 1 + depth') : ∃ inside close after,
          token :: tokens = inside ++ close :: after ∧ nest depth inside = some 0 ∧
          close.Closes ∧ nest outer after = some outer' := by
      obtain ⟨inside, close, after, rfl, hinside, hafter⟩ := @ih depth' (hnext ▸ hrest)
      refine ⟨token :: inside, close, after, rfl, ?_, hafter⟩
      rw [nest_cons, hinner]
      exact hinside
    cases token.kind with
    | opening _ _ enters =>
      exact hfurther (enters depth) (Option.some.inj (hnext.symm.trans (enters _)))
    | plain _ _ enters =>
      exact hfurther (enters depth) (Option.some.inj (hnext.symm.trans (enters _)))
    | closing _ closes _ enters =>
      cases depth with
      | zero =>
        obtain rfl : next = outer := Option.some.inj (hnext.symm.trans (enters _))
        exact ⟨[], token, tokens, rfl, rfl, closes, hrest⟩
      | succ depth =>
        exact hfurther (enters depth) (Option.some.inj (hnext.symm.trans (enters _)))

/-- What is counted right and nowhere mixed is nested by kind. -/
theorem wellNested_of_nest {tokens : List Token} (h : nest 0 tokens = some 0)
    (hmixed : ¬ Mixed tokens) : WellNested tokens := by
  induction hn : tokens.length using Nat.strongRecOn generalizing tokens with
  | ind n ih =>
    cases tokens with
    | nil => exact .nil
    | cons token tokens =>
      rw [nest_cons] at h
      obtain ⟨next, hnext, h⟩ := Option.bind_eq_some_iff.1 h
      rw [List.length_cons] at hn
      cases token.kind with
      | plain mate inner enters =>
        obtain rfl : next = 0 := Option.some.inj (hnext.symm.trans (enters 0))
        refine .plain mate inner (ih _ (by omega) h (fun hm => hmixed ?_) rfl)
        simpa using hm.surrounded [token] []
      | closing _ _ ends _ => simp [ends] at hnext
      | @opening close mate _ enters =>
        obtain rfl : next = 1 := Option.some.inj (hnext.symm.trans (enters 0))
        obtain ⟨inside, closing, after, rfl, hinside, hcloses, hafter⟩ :=
          @exists_closing 0 0 0 tokens h (Nat.le_refl 0)
        rw [List.length_append, List.length_cons] at hn
        have hmate : token.mate? = some closing := by
          by_contra hne
          exact hmixed ⟨[], token, inside, closing, after, rfl, by simp [mate], hinside, hcloses, hne⟩
        refine .group hmate (ih _ (by omega) hinside (fun hm => hmixed ?_) rfl)
          (ih _ (by omega) hafter (fun hm => hmixed ?_) rfl)
        · simpa using hm.surrounded [token] (closing :: after)
        · simpa using hm.surrounded (token :: (inside ++ [closing])) []

/-! ### A stack of the delimiters to come -/

/-- The delimiters that have to close what is open after a token, the innermost first, if the token
closes no other. -/
def follow (stack : List Token) (token : Token) : Option (List Token) :=
  match token.mate? with
  | some close => some (close :: stack)
  | none =>
    if token.Closes then if stack.head? = some token then some stack.tail else none
    else some stack

theorem follow_opening {opening close : Token} (h : opening.mate? = some close)
    (stack : List Token) : follow stack opening = some (close :: stack) := by
  simp [follow, h]

theorem follow_closing {token : Token} {stack stack' : List Token} (h : token.Closes)
    (hf : follow stack token = some stack') : stack = token :: stack' := by
  have hmate : token.mate? = none := by
    rcases h with rfl | rfl <;> rfl
  cases stack <;> simp_all [follow]

theorem WellNested.follow {tokens : List Token} (h : WellNested tokens) (stack : List Token) :
    tokens.foldlM follow stack = some stack := by
  induction h generalizing stack with
  | nil => rfl
  | @plain token tokens mate inner _ ih =>
    rw [List.foldlM_cons, Token.follow, mate, if_neg inner]
    exact ih stack
  | @group opening closing inside after mate _ _ ihin ihafter =>
    have hclose : Token.follow (closing :: stack) closing = some stack := by
      cases opening.kind with
      | @opening close mate' closes _ =>
        obtain rfl := Option.some.inj (mate.symm.trans mate')
        rcases closes with rfl | rfl <;> rfl
      | closing none | plain none => simp [mate] at none
    rw [List.foldlM_cons, follow_opening mate]
    change (inside ++ closing :: after).foldlM Token.follow (closing :: stack) = some stack
    rw [List.foldlM_append, ihin, Option.bind_eq_bind, Option.bind_some, List.foldlM_cons, hclose]
    exact ihafter stack

/-- Tokens leave the stack below what they open as it is. -/
theorem follow_nest {stack stack' below : List Token} {depth : Nat} {tokens : List Token}
    (h : tokens.foldlM follow (stack ++ below) = some stack')
    (hn : nest stack.length tokens = some depth) :
    ∃ rest, stack' = rest ++ below ∧ rest.length = depth := by
  induction tokens generalizing stack with
  | nil => exact ⟨stack, (Option.some.inj h).symm, Option.some.inj hn⟩
  | cons token tokens ih =>
    rw [List.foldlM_cons] at h
    rw [nest_cons] at hn
    obtain ⟨next, hnext, h⟩ := Option.bind_eq_some_iff.1 h
    obtain ⟨count, hcount, hn⟩ := Option.bind_eq_some_iff.1 hn
    cases token.kind with
    | @opening close mate _ enters =>
      obtain rfl := Option.some.inj ((follow_opening mate _).symm.trans hnext)
      obtain rfl := Option.some.inj ((enters _).symm.trans hcount)
      exact @ih (close :: stack) h hn
    | plain mate inner enters =>
      obtain rfl := Option.some.inj ((enters _).symm.trans hcount)
      obtain rfl : stack ++ below = next := by simpa [follow, mate, inner] using hnext
      exact ih h hn
    | closing _ closes ends enters =>
      cases stack with
      | nil => simp [ends] at hcount
      | cons x stack =>
        obtain rfl := Option.some.inj ((enters stack.length).symm.trans hcount)
        obtain ⟨-, rfl⟩ := List.cons.inj (follow_closing closes hnext)
        exact ih h hn

/-- A delimiter that is nested by kind is closed by its mate. -/
theorem WellNested.not_mixed {tokens : List Token} (h : WellNested tokens) : ¬ Mixed tokens := by
  rintro ⟨before, opening, inside, closing, after, rfl, hsome, hinside, hcloses, hmate⟩
  obtain ⟨close, hclose⟩ := Option.isSome_iff_exists.1 hsome
  have hall := h.follow []
  rw [List.foldlM_append] at hall
  obtain ⟨stack, -, hrest⟩ := Option.bind_eq_some_iff.1 hall
  rw [List.foldlM_cons, follow_opening hclose] at hrest
  change (inside ++ closing :: after).foldlM Token.follow ([] ++ close :: stack) = some [] at hrest
  rw [List.foldlM_append] at hrest
  obtain ⟨stack', hstack, hrest⟩ := Option.bind_eq_some_iff.1 hrest
  obtain ⟨rest, rfl, hlen⟩ := follow_nest hstack hinside
  obtain rfl := List.eq_nil_of_length_eq_zero hlen
  rw [List.foldlM_cons] at hrest
  obtain ⟨stack'', hlast, -⟩ := Option.bind_eq_some_iff.1 hrest
  obtain ⟨rfl, -⟩ := List.cons.inj (follow_closing hcloses hlast)
  exact hmate hclose

end Token

namespace Call

open Piece

/-! ### Calls that are ended -/

namespace Frame

variable {function : Text} {tokens : List Token} {c c' : Frame}

/-- The first call is one, so whatever surrounds it and ends it is told by the tokens. -/
theorem IsFirst.eq (h : c.IsFirst function tokens) (h' : c'.IsFirst function tokens) : c = c' := by
  have htokens (c : Frame) (h : c.IsFirst function tokens) :
      tokens = c.before ++ .ident c.name :: .lparen :: (c.inside ++ c.close :: c.after) :=
    h.tokens_eq.symm.trans c.tokens_eq
  have hlength : c.before.length = c'.before.length :=
    Nat.le_antisymm (h.first _ _ _ (htokens c' h') h'.named) (h'.first _ _ _ (htokens c h) h.named)
  have hall := (htokens c h).symm.trans (htokens c' h')
  obtain ⟨hbefore, hrest⟩ := List.append_inj hall hlength
  simp only [List.cons.injEq, Token.ident.injEq, true_and] at hrest
  obtain ⟨hname, hinside⟩ := hrest
  obtain ⟨hin, hclose, hafter⟩ := Token.eq_of_nest h.nested h'.nested h.closes h'.closes hinside
  cases c
  cases c'
  simp_all

/-- The tokens from the parenthesis of the call to the delimiter that ends it. -/
def enclosed (c : Frame) : List Token := .lparen :: (c.inside ++ [c.close])

theorem IsFirst.nest_enclosed (h : c.IsFirst function tokens) :
    Token.nest 0 c.enclosed = some 0 := by
  have hinside := Token.nest_add h.nested 1
  rw [Nat.zero_add] at hinside
  have hopen : Token.enter 0 .lparen = some 1 := rfl
  rw [enclosed, Token.nest_cons, hopen, Option.bind_some, Token.nest_append, hinside,
    Option.bind_some, Token.nest_cons, (h.closes.enter 0).2]
  rfl

end Frame

theorem exists_split? {depth : Nat} {ps : List Piece} {inside after : List Token} {close : Token}
    (h : ps.filterMap token? = inside ++ close :: after)
    (hinside : Token.nest depth inside = some 0) (hclose : close.Closes) :
    ∃ parts, split? depth ps = some parts := by
  induction ps generalizing depth inside with
  | nil => simp at h
  | cons p ps ih =>
    cases p with
    | gap s =>
      obtain ⟨parts, hparts⟩ := ih h hinside
      exact ⟨_, by rw [split?_gap, hparts]; rfl⟩
    | lexeme s token =>
      have htokens : token :: ps.filterMap token? = inside ++ close :: after := h
      cases inside with
      | nil =>
        obtain rfl : depth = 0 := Option.some.inj hinside
        obtain ⟨rfl, -⟩ := List.cons.inj htokens
        have hcomma : token ≠ .comma := by
          rintro rfl
          simp [Token.Closes] at hclose
        exact ⟨([], []), by rw [split?_lexeme, if_neg (by simp [hcomma]), (hclose.enter 0).1]⟩
      | cons t inside =>
        obtain ⟨rfl, hrest⟩ := List.cons.inj htokens
        rw [Token.nest_cons] at hinside
        obtain ⟨next, hnext, hinside⟩ := Option.bind_eq_some_iff.1 hinside
        obtain ⟨parts, hparts⟩ := ih hrest hinside
        rw [split?_lexeme]
        split
        next hcomma =>
          obtain ⟨rfl, rfl⟩ := hcomma
          obtain rfl : 0 = next := Option.some.inj hnext
          exact ⟨_, by rw [hparts]; rfl⟩
        next => exact ⟨_, by simp only [hnext, hparts]; rfl⟩

theorem exists_find? {function name : Text} {ps : List Piece} {before after : List Token}
    (h : ps.filterMap token? = before ++ .ident name :: .lparen :: after)
    (hname : canonicalName name = function) (offset : Nat) :
    ∃ start inside, find? function offset ps = some (start, inside) := by
  induction ps generalizing before offset with
  | nil => simp at h
  | cons p ps ih =>
    cases p with
    | gap s => exact ih h (offset + s.byteSize)
    | lexeme s token =>
      have htokens : token :: ps.filterMap token? = before ++ .ident name :: .lparen :: after := h
      cases before with
      | nil =>
        obtain ⟨rfl, hparen⟩ := List.cons.inj htokens
        obtain ⟨inside, hinside⟩ := afterParen?_of_tokens hparen
        exact ⟨offset, inside, by simp [find?, token?, hname, hinside]⟩
      | cons t before =>
        obtain ⟨start, inside, hfind⟩ := ih (List.cons.inj htokens).2 (offset + s.byteSize)
        simp only [find?, token?]
        split
        · split
          · split
            · exact ⟨_, _, rfl⟩
            · exact ⟨start, inside, hfind⟩
          · exact ⟨start, inside, hfind⟩
        · exact ⟨start, inside, hfind⟩

/-- The arguments are taken just when some delimiter ends the first call, of whichever kind. -/
theorem arguments_ok_iff {equation function : Text} :
    (∃ args, arguments equation function = .ok args) ↔
      ∃ c : Frame, c.IsFirst (canonicalName function) (Token.ofEquation equation) := by
  constructor
  · rintro ⟨args, h⟩
    obtain ⟨p, c, hc⟩ := exists_split h
    exact ⟨c, hc.isFirst⟩
  · rintro ⟨c, hc⟩
    have htokens := hc.tokens_eq.symm.trans c.tokens_eq
    obtain ⟨start, ps, hfind⟩ := exists_find? htokens hc.named 0
    obtain ⟨before, name, hps, hname, hfirst⟩ := exists_of_find? hfind
    have hlength : before.length = c.before.length :=
      Nat.le_antisymm (hfirst _ _ _ htokens hc.named) (hc.first _ _ _ hps hname)
    obtain ⟨-, hrest⟩ := List.append_inj (hps.symm.trans htokens) hlength
    simp only [List.cons.injEq, true_and] at hrest
    obtain ⟨parts, hparts⟩ := exists_split? hrest.2 hc.nested hc.closes
    exact ⟨trimmed parts, by simp only [arguments, hfind, hparts]⟩

theorem exists_error {equation function : Text}
    (h : ¬ ∃ args, arguments equation function = .ok args) :
    ∃ start, arguments equation function = .error ⟨start, equation.byteSize⟩ := by
  unfold arguments at h ⊢
  split
  · exact ⟨0, rfl⟩
  next start inside hfind =>
    split
    · exact ⟨start, rfl⟩
    next parts hparts => exact absurd ⟨trimmed parts, by simp only [hfind, hparts]⟩ h

/-- From its parenthesis to what ends it, the first call of the function is nested by kind. -/
def IsWellNested (equation function : Text) : Prop :=
  ∃ c : Frame, c.IsFirst (canonicalName function) (Token.ofEquation equation) ∧
    Token.WellNested c.enclosed

/-- In the first call of the function, a delimiter is closed by one of the other kind. -/
def IsMixed (equation function : Text) : Prop :=
  ∃ c : Frame, c.IsFirst (canonicalName function) (Token.ofEquation equation) ∧
    Token.Mixed c.enclosed

theorem IsWellNested.not_isMixed {equation function : Text} (h : IsWellNested equation function) :
    ¬ IsMixed equation function := by
  obtain ⟨c, hc, hnested⟩ := h
  rintro ⟨c', hc', hmixed⟩
  obtain rfl := hc.eq hc'
  exact hnested.not_mixed hmixed

theorem arguments_ok_iff_nested {equation function : Text} :
    (∃ args, arguments equation function = .ok args) ↔
      IsWellNested equation function ∨ IsMixed equation function := by
  rw [arguments_ok_iff]
  constructor
  · rintro ⟨c, hc⟩
    by_cases hmixed : Token.Mixed c.enclosed
    · exact .inr ⟨c, hc, hmixed⟩
    · exact .inl ⟨c, hc, Token.wellNested_of_nest hc.nest_enclosed hmixed⟩
  · rintro (⟨c, hc, -⟩ | ⟨c, hc, -⟩) <;> exact ⟨c, hc⟩

end Call

open Call

/-! ### Stocks that cannot be split -/

/-- The dialect takes the equation for a stock, and has no other function for a placeholder that it
takes the equation for. -/
structure Dialect.ReadsStock (d : Dialect) (equation : Text) : Prop where
  stock : d.callsStock equation = true
  placeholder : d.callsPlaceholder equation = true → d.placeholder.text = d.stock.text

theorem dependencies_of_unsplit {d : Dialect} {operator : Operator} {equation : Text}
    (hop : operator ≠ .subscriptRange) (hstock : d.ReadsStock equation)
    (h : ¬ ∃ args, arguments equation d.stock.text = .ok args) :
    ∃ cause, dependencies d operator equation = .error cause := by
  obtain ⟨start, herror⟩ := exists_error h
  refine ⟨⟨start, equation.byteSize⟩, ?_⟩
  unfold dependencies
  rw [if_neg hop]
  split
  next hcalls =>
    rw [hstock.placeholder hcalls, herror]
    rfl
  next => rw [checkStock, if_pos hstock.stock, herror]; rfl

namespace Block

/-- The lines of a block with its delimiters, and the definition on them. -/
inductive Defines : List Text → Text → Operator → Text → Prop where
  | intro {first name definition units comment : Text} {continued more rest : List Text}
      (declared : declared? (Line.withoutEnding first) = some (name, definition))
      (beforeUnits : ∀ l ∈ continued, Line.isDelimiter l = false)
      (atUnits : Line.isDelimiter units = true)
      (beforeComment : ∀ l ∈ more, Line.isDelimiter l = false)
      (atComment : Line.isDelimiter comment = true) :
      Defines (first :: (continued ++ units :: (more ++ comment :: rest))) name
        (Operator.split definition).1
        (Line.join none none ((Operator.split definition).2 :: continued))

theorem read_of_unsplit {d : Dialect} {block : Stretch} {name equation : Text} {operator : Operator}
    {cause : CallError} (h : Defines block.lines name operator equation)
    (hdepends : dependencies d operator equation = .error cause) :
    read d block = .error ⟨some name, block.range, .badArguments equation⟩ := by
  generalize hlines : block.lines = lines at h
  cases h with
  | intro declared beforeUnits atUnits beforeComment atComment =>
    rw [read_of_delimiters hlines declared beforeUnits atUnits beforeComment atComment _ rfl,
      hdepends]

/-- What cannot be read is reported, wherever it stands. -/
theorem mem_errors {d : Dialect} {blocks : List Stretch} {block : Stretch} {e : BlockError}
    (hblock : block ∈ blocks) (hread : read d block = .error e) : e ∈ errors d blocks := by
  induction blocks using List.reverseRecOn with
  | nil => simp at hblock
  | append_singleton blocks last ih =>
    rw [errors_append_singleton, List.mem_append]
    rcases List.mem_append.1 hblock with hblock | hlast
    · exact .inl (ih hblock)
    · obtain rfl := List.mem_singleton.1 hlast
      exact .inr (by simp [error?, hread])

end Block

theorem Model.edit_of_unsplit {m : Model} {name t : Text} {r : Record} {e : Edit} {cause : CallError}
    (hfind : m.graph.find? name = some r) (he : e.equation = some t)
    (h : dependencies m.dialect r.operator (Edit.oneLine t) = .error cause) :
    m.edit name e = .error (.badArguments r.name (Edit.oneLine t) cause) := by
  simp only [Model.edit, hfind, Edit.apply, he, Option.map_some, h]

/-- Arguments are taken just of a call that is nested by kind, and so ended by a parenthesis, or that
mixes the kinds: in it, a delimiter is closed by one of the other kind. Of every other equation no
arguments are taken, and if it is a stock, an edit that brings it is refused, and a load that reads it
fails and reports it. -/
theorem splits_wellNested (d : Dialect) (equation function : Text) :
    ((∃ args, arguments equation function = .ok args) ↔
      IsWellNested equation function ∨ IsMixed equation function) ∧
    ¬ (IsWellNested equation function ∧ IsMixed equation function) ∧
    (¬ IsWellNested equation function → ¬ IsMixed equation function →
      ∃ start, arguments equation function = .error ⟨start, equation.byteSize⟩) ∧
    (d.ReadsStock equation → ¬ IsWellNested equation d.stock.text →
      ¬ IsMixed equation d.stock.text →
      (∀ (m : Model) (name t : Text) (r : Record) (e : Edit), m.dialect = d →
        m.graph.find? name = some r → r.operator ≠ .subscriptRange → e.equation = some t →
        Edit.oneLine t = equation →
          ∃ cause, m.edit name e = .error (.badArguments r.name equation cause)) ∧
      ∀ (source : Text) (sections : Sections) (parts : List Part) (block : Stretch) (name : Text)
        (operator : Operator), Sections.ofLines d (Line.split source) = .ok sections →
        Part.extract sections.declarations = .ok parts → block ∈ parts.filterMap Part.block? →
        Block.Defines block.lines name operator equation → operator ≠ .subscriptRange →
          ∃ errors, Model.load d source = .error (.blocks errors) ∧
            ⟨some name, block.range, .badArguments equation⟩ ∈ errors) := by
  have hunsplit {function : Text} (hnested : ¬ IsWellNested equation function)
      (hmixed : ¬ IsMixed equation function) :
      ¬ ∃ args, arguments equation function = .ok args :=
    fun hok => (arguments_ok_iff_nested.1 hok).elim hnested hmixed
  refine ⟨arguments_ok_iff_nested, fun h => h.1.not_isMixed h.2,
    fun hnested hmixed => exists_error (hunsplit hnested hmixed),
    fun hstock hnested hmixed => ⟨?_, ?_⟩⟩
  · rintro m name t r e rfl hfind hop he rfl
    obtain ⟨cause, hcause⟩ := dependencies_of_unsplit hop hstock (hunsplit hnested hmixed)
    exact ⟨cause, Model.edit_of_unsplit hfind he hcause⟩
  · intro source sections parts block name operator hsections hparts hblock hdefines hop
    obtain ⟨cause, hcause⟩ := dependencies_of_unsplit hop hstock (hunsplit hnested hmixed)
    have hmem := Block.mem_errors hblock (Block.read_of_unsplit hdefines hcause)
    exact ⟨_, (Model.load_eq_error_iff hsections hparts).2 ⟨List.ne_nil_of_mem hmem, rfl⟩, hmem⟩

/-- A stock whose call nothing ends, the lines that declare it, and a document with them. -/
def unendedStock : Text := "INTEG(a, (b".toList

def unendedBlock : Stretch :=
  ⟨1, ["x = INTEG(a, (b\n", "\t~\n", "\t~\t|\n"].map String.toList⟩

def unendedSource : Text :=
  "\x7bUTF-8\x7d\nx = INTEG(a, (b\n\t~\n\t~\t|\n\n***\n".toList

/-- A model of one constant. -/
def constantModel : Model where
  dialect := .standard
  document := ⟨⟨[], ⟨1, []⟩, ⟨1, []⟩⟩, [], .lf⟩
  graph := Graph.ofRecords [⟨['x'], .equals, ['1'], [], [], Catalog.empty, Catalog.empty, .constant⟩]
  edited := Catalog.empty

theorem unendedBlock_extracted : ∃ sections parts,
    Sections.ofLines .standard (Line.split unendedSource) = .ok sections ∧
      Part.extract sections.declarations = .ok parts ∧
      parts.filterMap Part.block? = [unendedBlock] := by
  have hchunks : Chunks (unendedBlock.lines ++ [['\n']])
      [.block unendedBlock.lines, .outside [['\n']]] :=
    .block (by decide) (by decide) (by decide) (by decide)
      (.outside (by decide) (by decide) .nil)
  exact ⟨⟨"\x7bUTF-8\x7d\n".toList, ⟨1, unendedBlock.lines ++ [['\n']]⟩, ⟨5, ["***\n".toList]⟩⟩, _,
    rfl, Part.extractFrom_of_chunks hchunks 1 [], rfl⟩

theorem unendedBlock_defines : Block.Defines unendedBlock.lines ['x'] .equals unendedStock := by
  have hdeclared : Block.declared? (Line.withoutEnding "x = INTEG(a, (b\n".toList) =
      some (['x'], " = INTEG(a, (b".toList) := by
    rw [Block.declared?, Piece.scan_eq_scanUpTo]
    rfl
  exact @Block.Defines.intro _ _ _ "\t~\n".toList "\t~\t|\n".toList [] [] [] hdeclared
    (by simp) (by decide) (by simp) (by decide)

/-- No arguments are taken of the stock, an edit that brings it is refused, and a load reports it. -/
theorem unendedStock_refused : Dialect.standard.ReadsStock unendedStock ∧
    ¬ IsWellNested unendedStock Dialect.standard.stock.text ∧
    ¬ IsMixed unendedStock Dialect.standard.stock.text ∧
    (∃ start, arguments unendedStock Dialect.standard.stock.text =
      .error ⟨start, unendedStock.byteSize⟩) ∧
    (∃ cause, constantModel.edit ['x'] ⟨some unendedStock, none, none⟩ =
      .error (.badArguments ['x'] unendedStock cause)) ∧
    ∃ errors, Model.load .standard unendedSource = .error (.blocks errors) ∧
      ⟨some ['x'], ⟨1, 4⟩, .badArguments unendedStock⟩ ∈ errors := by
  have hname : Dialect.standard.stock.text = "INTEG".toList := by decide
  have herror : arguments unendedStock "INTEG".toList = .error ⟨0, 11⟩ := by
    rw [arguments, Piece.scan_eq_scanUpTo]
    rfl
  have hreads : Dialect.standard.ReadsStock unendedStock := by
    have hplaceholder : Dialect.standard.callsPlaceholder unendedStock = false := by decide
    exact ⟨by decide, fun h => by simp [hplaceholder] at h⟩
  have hunsplit : ¬ ∃ args, arguments unendedStock Dialect.standard.stock.text = .ok args := by
    rw [hname, herror]
    simp
  obtain ⟨hnested, hmixed⟩ := not_or.1 (mt arguments_ok_iff_nested.2 hunsplit)
  obtain ⟨-, -, hargs, hstock⟩ := splits_wellNested .standard unendedStock Dialect.standard.stock.text
  obtain ⟨hedit, hload⟩ := hstock hreads hnested hmixed
  obtain ⟨sections, parts, hsections, hparts, hblocks⟩ := unendedBlock_extracted
  have honeLine : Edit.oneLine unendedStock = unendedStock := by decide
  refine ⟨hreads, hnested, hmixed, hargs hnested hmixed, ?_, ?_⟩
  · exact hedit constantModel ['x'] unendedStock _ ⟨some unendedStock, none, none⟩ rfl rfl
      (by decide) rfl honeLine
  · exact hload unendedSource sections parts unendedBlock ['x'] .equals hsections hparts
      (by simp [hblocks]) unendedBlock_defines (by decide)

/-- A call that a bracket ends. -/
def bracketedCall : Text := "f(a, b]".toList

theorem bracketedCall_tokens : Token.ofEquation bracketedCall =
    [.ident ['f'], .lparen, .ident ['a'], .comma, .ident ['b'], .rbracket] := by
  rw [Token.ofEquation, Piece.scan_eq_scanUpTo]
  rfl

theorem bracketedCall_arguments : arguments bracketedCall ['f'] = .ok [['a'], ['b']] := by
  rw [arguments, Piece.scan_eq_scanUpTo]
  rfl

theorem not_all_calls_nested : ¬ ∀ equation function : Text,
    (∃ args, arguments equation function = .ok args) → IsWellNested equation function := by
  intro hall
  have hnested := hall bracketedCall ['f'] ⟨_, bracketedCall_arguments⟩
  refine hnested.not_isMixed
    ⟨⟨[], ['f'], [.ident ['a'], .comma, .ident ['b']], .rbracket, []⟩, ?_, ?_⟩
  · exact ⟨bracketedCall_tokens.symm, rfl, fun _ _ _ _ _ => Nat.zero_le _, rfl, .inr rfl⟩
  · exact ⟨[], .lparen, _, .rbracket, [], rfl, rfl, rfl, .inr rfl, by decide⟩

end StockFlow
