import StockFlow.Proofs.Places

/-! A call made of its own arguments. Written again with a comma and a space between them, the
arguments of a call are its arguments again. What follows an argument changes, and a scanner may look
far ahead of what it takes, but a comma or a parenthesis stops each scanner, and a bracket that the
equation closes nowhere after an argument is closed nowhere after it in the new call. -/
namespace StockFlow

namespace Piece

open Unicode (isBlank)

/-! ### Scanners that a separator stops -/

/-- What a scanner takes before the character does not depend on the character and what follows. -/
def StopsAt (x : Char) (f : Text → Text) : Prop := ∀ t u : Text, f (t ++ x :: u) = f t

theorem stopsAt_takeWhile {x : Char} {p : Char → Bool} (h : p x = false) :
    StopsAt x (List.takeWhile p) := by
  intro t u
  rw [List.takeWhile_append, List.takeWhile_cons_of_neg (by simp [h]), List.append_nil]
  split
  next hl => exact ((List.takeWhile_prefix p).eq_of_length hl).symm
  next => rfl

theorem StopsAt.andThen {x : Char} {f g : Text → Text} (hf : StopsAt x f) (hg : StopsAt x g)
    (hp : ∀ t, f t <+: t) : StopsAt x (andThen f g) := by
  intro t u
  rw [Piece.andThen, Piece.andThen, hf, List.drop_append_of_le_length (hp t).length_le, hg]

/-- The characters that end an argument where it is written into a call. -/
def IsStop (x : Char) : Prop := x = ',' ∨ x = ')'

section Stops

variable {x : Char} (hx : IsStop x)
include hx

theorem IsStop.not_isDigit : x.isDigit = false := by
  rcases hx with rfl | rfl <;> decide

theorem IsStop.stopsAt_nameTail : StopsAt x nameTail := by
  have hname : (isNameContinue x || isSpacing x) = false := by
    rcases hx with rfl | rfl <;> decide
  intro t u
  rw [nameTail, stopsAt_takeWhile hname t u, nameTail]

theorem IsStop.stopsAt_fraction : StopsAt x fraction := by
  intro t u
  cases t with
  | nil => rcases hx with rfl | rfl <;> rfl
  | cons c t =>
    by_cases hc : c = '.'
    · subst hc
      exact congrArg (List.cons '.') (stopsAt_takeWhile hx.not_isDigit t u)
    · simp [fraction, hc]

theorem IsStop.stopsAt_sign : StopsAt x sign := by
  intro t u
  cases t with
  | nil => rcases hx with rfl | rfl <;> rfl
  | cons c t => rfl

theorem IsStop.stopsAt_exponent : StopsAt x exponent := by
  intro t u
  cases t with
  | nil => rcases hx with rfl | rfl <;> rfl
  | cons e t =>
    have hdigits := stopsAt_takeWhile hx.not_isDigit (t.drop (sign t).length) u
    rw [List.cons_append, exponent_cons, exponent_cons, hx.stopsAt_sign t u,
      List.drop_append_of_le_length (prefix_sign t).length_le, hdigits]

theorem IsStop.numeral_eq (c : Char) (t u : Text) : numeral c (t ++ x :: u) = numeral c t := by
  have hpart : StopsAt x (numeralPart c) := by
    intro t u
    unfold numeralPart
    split
    · rfl
    · exact hx.stopsAt_fraction t u
  have hprefix (t : Text) : numeralPart c t <+: t := by
    unfold numeralPart
    split
    · exact List.nil_prefix
    · exact prefix_fraction t
  have hall := (stopsAt_takeWhile hx.not_isDigit).andThen
    (hpart.andThen hx.stopsAt_exponent hprefix) fun t => List.takeWhile_prefix _
  rw [Piece.numeral_eq, Piece.numeral_eq, hall t u]

theorem IsStop.startsNumeral_eq (c : Char) (t u : Text) :
    startsNumeral c (t ++ x :: u) = startsNumeral c t := by
  cases t with
  | nil => simp [startsNumeral, hx.not_isDigit]
  | cons d t => rfl

theorem IsStop.symbol_eq (c : Char) (t u : Text) : symbol c (t ++ x :: u) = symbol c t := by
  cases t with
  | nil =>
    rcases hx with rfl | rfl <;>
    · simp only [symbol, List.nil_append]
      split <;> simp_all
  | cons d t =>
    simp only [symbol, List.cons_append]
    split <;> split <;> simp_all

/-- A word runs up to the separator at most, so a colon that makes it a keyword stands before that. -/
theorem IsStop.afterColon_eq (t u : Text) : afterColon (t ++ x :: u) = afterColon t := by
  have hword : isKeywordCharacter x = false := by
    rcases hx with rfl | rfl <;> decide
  have htake := stopsAt_takeWhile hword t u
  have hnext (t : Text) : (t ++ x :: u).head? = some ':' ↔ t.head? = some ':' := by
    cases t with
    | nil => rcases hx with rfl | rfl <;> simp
    | cons c t => rfl
  have hopens : OpensKeyword (t ++ x :: u) ↔ OpensKeyword t := by
    have hlen : (t.takeWhile isKeywordCharacter).length ≤ t.length :=
      (List.takeWhile_prefix _).length_le
    rw [OpensKeyword, htake, List.drop_append_of_le_length hlen, hnext, OpensKeyword]
  by_cases hk : OpensKeyword t
  · rw [afterColon_keyword hk, afterColon_keyword (hopens.2 hk), htake]
  · rw [afterColon_operator hk, afterColon_operator (mt hopens.1 hk)]
    cases t with
    | nil => rcases hx with rfl | rfl <;> simp
    | cons c t => rfl

end Stops

/-! ### A separator in place of what follows -/

section Before

variable {t post u : Text} {x : Char}

/-- What ends before more text is closed, so nothing that follows matters to it. -/
theorem throughClosing_before {delimiter : Char} (hpost : post ≠ [])
    (h : (throughClosing delimiter false (t ++ post)).length ≤ t.length) :
    throughClosing delimiter false (t ++ x :: u) = throughClosing delimiter false t ∧
      (throughClosing delimiter false t).length ≤ t.length := by
  have ht := stable_throughClosing delimiter false t post h
  obtain ⟨rest, hrest⟩ := prefix_throughClosing delimiter false t
  have hclosed : Closes delimiter false (throughClosing delimiter false (t ++ post)) := by
    have hmore : t ++ post = throughClosing delimiter false (t ++ post) ++ (rest ++ post) := by
      rw [← ht, ← List.append_assoc, hrest]
    exact closes_of_followed hmore (by simp [hpost])
  refine ⟨?_, (prefix_throughClosing delimiter false t).length_le⟩
  rw [← ht] at hclosed
  conv_lhs => rw [← hrest, List.append_assoc]
  exact hclosed _

theorem named_before {name : Text} (hx : IsStop x) (hbracket : ']' ∈ u → ']' ∈ post)
    (h : (named name (t ++ post)).source.length ≤ name.length + t.length) :
    named name (t ++ x :: u) = named name t := by
  have ht := named_append h
  rcases named_cases name t with ⟨subscript, after, htext, hs, hn⟩ | ⟨-, hn⟩
  · have hsp : ∀ c ∈ t.takeWhile isSpacing, isSpacing c = true := fun c => List.mem_takeWhile_imp
    have hmore : named name (t.takeWhile isSpacing ++ '[' :: subscript ++ ']' :: (after ++ x :: u)) =
        _ := named_subscripted hsp hs
    rw [hn, ← hmore]
    conv_lhs => rw [htext]
    simp
  · -- a bracket that the equation does not close after the name
    rw [hn] at ht ⊢
    refine named_ident fun inside hinside hclose => ?_
    obtain ⟨inside', rfl, hinside'⟩ : ∃ inside', inside = inside' ++ x :: u ∧
        t.dropWhile isSpacing = '[' :: inside' := by
      rw [List.dropWhile_append] at hinside
      split at hinside
      · rcases hx with rfl | rfl <;> simp [isSpacing] at hinside
      next hne =>
        have hdrop : t.dropWhile isSpacing ≠ [] := fun hn => hne (by rw [hn]; rfl)
        obtain ⟨c, rest, hcons⟩ := List.exists_cons_of_ne_nil hdrop
        rw [hcons, List.cons_append] at hinside
        obtain ⟨rfl, rfl⟩ := List.cons.inj hinside
        exact ⟨rest, rfl, hcons⟩
    have hopen : ']' ∈ inside' ++ post := by
      rcases List.mem_append.1 hclose with hm | hm
      · exact List.mem_append_left _ hm
      · rcases List.mem_cons.1 hm with rfl | hm
        · rcases hx with hx | hx <;> simp at hx
        · exact List.mem_append_right _ (hbracket hm)
    have hopened : (t ++ post).dropWhile isSpacing = '[' :: (inside' ++ post) := by
      rw [List.dropWhile_append, hinside']
      simp
    rcases named_cases name (t ++ post) with ⟨_, _, -, -, hn'⟩ | ⟨hnone, -⟩
    · simp [hn'] at ht
    · exact hnone _ hopened hopen

theorem word_before {c : Char} {f : Text → Text} (hf : Stable f) (hx : IsStop x)
    (hstop : (f (t ++ post)).length ≤ t.length → f (t ++ x :: u) = f t ∧ (f t).length ≤ t.length)
    (hbracket : ']' ∈ u → ']' ∈ post)
    (h : (word c f (t ++ post)).source.length ≤ t.length + 1) :
    word c f (t ++ x :: u) = word c f t := by
  unfold word at h ⊢
  obtain ⟨more, hm, -⟩ := named_source (c :: f (t ++ post)) ((t ++ post).drop (f (t ++ post)).length)
  have hle := h
  rw [hm, List.length_append, List.length_cons] at hle
  have hl : (f (t ++ post)).length ≤ t.length := by omega
  obtain ⟨hsame, hlen⟩ := hstop hl
  rw [← hf t post hl, List.drop_append_of_le_length hlen] at h
  rw [hsame, List.drop_append_of_le_length hlen]
  refine named_before hx hbracket (h.trans ?_)
  rw [List.length_cons, List.length_drop]
  omega

/-- The first piece of a text is the same before the separator as before what follows it. -/
theorem first_before {c : Char} (hx : IsStop x) (hpost : post ≠ [])
    (hbracket : ']' ∈ u → ']' ∈ post)
    (h : (first c (t ++ post)).source.length ≤ t.length + 1) :
    first c (t ++ x :: u) = first c t := by
  have hthrough {delimiter : Char}
      (hl : (throughClosing delimiter false (t ++ post)).length ≤ t.length) :=
    throughClosing_before (x := x) (u := u) hpost hl
  by_cases hc : c ∈ decisive
  · simp only [decisive, List.mem_cons, List.not_mem_nil, or_false] at hc
    rcases hc with rfl | rfl | rfl | rfl | rfl | rfl | rfl | rfl | rfl
    case inl =>
      simp only [first, (hthrough (Nat.le_of_succ_le_succ h)).1]
    case inr.inr.inr.inr.inr.inr.inl =>
      exact word_before (stable_throughClosing '"' false) hx hthrough hbracket h
    case inr.inr.inr.inr.inr.inr.inr.inl =>
      simp only [first, singleQuoted, (hthrough (Nat.le_of_succ_le_succ h)).1]
    case inr.inr.inr.inr.inr.inr.inr.inr => exact hx.afterColon_eq t u
    all_goals rfl
  · rw [first_plain hc] at h
    rw [first_plain hc, first_plain hc]
    have hblank : isBlank x = false := by
      rcases hx with rfl | rfl <;> decide
    by_cases hw : isNameStart c = true
    · rw [← first_plain hc, first_word hw] at h
      rw [← first_plain hc, ← first_plain hc, first_word hw, first_word hw]
      exact word_before stable_nameTail hx
        (fun _ => ⟨hx.stopsAt_nameTail t u, (prefix_nameTail t).length_le⟩) hbracket h
    · simp only [firstPlain, stopsAt_takeWhile hblank t u, hx.startsNumeral_eq c t u,
        hx.numeral_eq c t u, hx.symbol_eq c t u, if_neg hw]

end Before

/-- A text that is cut after some of its pieces keeps these where a separator takes the place of what
follows, unless that brings a closing bracket. -/
theorem scan_before {a post u : Text} {x : Char} (hx : IsStop x) (hpost : post ≠ [])
    (hbracket : ']' ∈ u → ']' ∈ post) (h : scan (a ++ post) = scan a ++ scan post) :
    scan (a ++ x :: u) = scan a ++ scan (x :: u) := by
  induction a using scan_induction with
  | nil => simp
  | @cons c s more hs ht ih =>
    obtain ⟨hfirst, hmore⟩ : first c (s ++ more ++ post) = first c (s ++ more) ∧
        scan (more ++ post) = scan more ++ scan post := by
      obtain ⟨s', hs', more', hrest⟩ := first_source c (s ++ more ++ post)
      rw [List.cons_append, ← hrest, scan_cons (hrest ▸ hs'), ht, List.cons_append] at h
      obtain ⟨hfirst, htail⟩ := List.cons.inj h
      rw [hrest] at hfirst
      obtain rfl : s' = s := by
        rw [hfirst, hs] at hs'
        exact (List.cons.inj hs').2.symm
      rw [List.append_assoc, List.append_cancel_left_eq] at hrest
      exact ⟨hfirst, hrest ▸ htail⟩
    have hsame : first c (s ++ more ++ x :: u) = first c (s ++ more) := by
      refine first_before hx hpost hbracket ?_
      rw [hfirst, hs]
      simp
    rw [List.append_assoc] at hsame
    rw [ht, List.cons_append, List.append_assoc, scan_cons (by rw [hsame, hs]), hsame, ih hmore,
      List.cons_append]

end Piece

namespace Call

open Piece

/-! ### The arguments of a call -/

/-- The text that a group makes an argument. -/
def trimmedSource (group : List Piece) : Text := Text.trim (group.flatMap source)

theorem mem_of_mem_trimmedSource {c : Char} {group : List Piece} (h : c ∈ trimmedSource group) :
    c ∈ group.flatMap source :=
  (Text.trim_sublist _).subset h

/-- The pieces of an argument are neighbours in the equation, and more follows them there. -/
theorem exists_scan_trimmedSource {equation : Text} {ps group qs : List Piece} {p : Piece}
    (h : scan equation = ps ++ (group ++ p :: qs)) (hp : EndsArgument p) :
    ∃ post, post ≠ [] ∧
      scan (trimmedSource group ++ post) = scan (trimmedSource group) ++ scan post ∧
      (p :: qs).flatMap source ⊆ post := by
  obtain ⟨before, after, -, -, -, hsplit⟩ := exists_scan_between h hp
  have hpost := scan_suffix hsplit
  have hall := scan_suffix (hsplit.trans (List.append_assoc _ _ _))
  rw [List.flatMap_append, scan_source] at hall
  refine ⟨(after ++ p :: qs).flatMap source, fun hn => ?_, ?_, ?_⟩
  · rw [hn, scan_nil] at hpost
    exact absurd hpost.symm (by simp)
  · rw [trimmedSource, hall, hpost]
  · rw [List.flatMap_append]
    exact List.subset_append_right _ _

theorem apart_of_separated {equation : Text} {ps body qs : List Piece} {p : Piece}
    {groups : List (List Piece)} (h : Separated body groups) (hp : EndsArgument p)
    (hscan : scan equation = ps ++ (body ++ p :: qs)) {first : List Piece}
    {others : List (List Piece)} (hgroups : groups = first :: others) :
    Apart (trimmedSource first) (others.map trimmedSource) := by
  induction h generalizing ps first others with
  | last group =>
    obtain ⟨rfl, rfl⟩ := List.cons.inj hgroups
    obtain ⟨post, hne, hpost, -⟩ := exists_scan_trimmedSource hscan hp
    exact .last (scan_before (.inr rfl) hne (by simp) hpost)
  | @cons group s body groups h ih =>
    obtain ⟨rfl, rfl⟩ := List.cons.inj hgroups
    obtain ⟨next, others, rfl⟩ := h.exists_cons
    have hgroup : scan equation = ps ++ (group ++ .lexeme s .comma :: (body ++ p :: qs)) :=
      hscan.trans (by simp)
    obtain ⟨post, hne, hpost, hsub⟩ := exists_scan_trimmedSource hgroup (.inl rfl)
    refine .cons (scan_before (.inl rfl) hne (fun hm => hsub ?_) hpost)
      (@ih (ps ++ (group ++ [.lexeme s .comma])) (hgroup.trans (by simp)) next others rfl)
    -- a bracket of a later argument stands after this one in the equation too
    have hlater : ∃ x ∈ (next :: others).map trimmedSource, ']' ∈ x := by
      rcases List.mem_cons.1 hm with hm | hm
      · exact absurd hm (by decide)
      · exact (mem_joined hm).resolve_left (by decide)
    obtain ⟨x, hx, hm⟩ := hlater
    obtain ⟨later, hl, rfl⟩ := List.mem_map.1 hx
    obtain ⟨q, hq, hm⟩ := List.mem_flatMap.1 (mem_of_mem_trimmedSource hm)
    refine List.mem_flatMap.2 ⟨q, ?_, hm⟩
    exact List.mem_cons_of_mem _ (List.mem_append_left _ (h.subset later hl hq))

/-- The name of a call is written as the token holds it. -/
theorem Split.Gives.exists_name {p : Split} {c : Frame} {equation function : Text}
    {args : List Text} (h : p.Gives c equation function args) : IsName c.name ∧
      ∃ before after, scan equation = before ++ .lexeme c.name (.ident c.name) :: after ∧
        before.filterMap token? = c.before := by
  have hhead : p.head.filterMap token? = c.before ++ .ident c.name :: [.lparen] := h.head_eq
  obtain ⟨before, rest, hhead, hbefore, hrest⟩ := List.filterMap_eq_append_iff.1 hhead
  obtain ⟨gaps, q, more, rfl, hgaps, hq, -⟩ := List.filterMap_eq_cons_iff.1 hrest
  cases q with
  | gap => simp [token?] at hq
  | lexeme s token =>
    obtain rfl : token = .ident c.name := Option.some.inj hq
    have hscan : scan equation = (before ++ gaps) ++ .lexeme s (.ident c.name) ::
        (more ++ (p.body ++ .lexeme p.source c.close :: p.after)) := by
      rw [h.scan_eq, hhead]
      simp
    obtain ⟨rfl, hname⟩ := isName_of_scan hscan (by simp)
    refine ⟨hname, _, _, hscan, ?_⟩
    rw [List.filterMap_append, hbefore, List.filterMap_eq_nil_iff.2 hgaps, List.append_nil]

end Call

open Piece Call

/-- The arguments of a call, written into a call with the same name, a comma and a space between two
of them, are the arguments of that call. -/
theorem arguments_rejoined {equation function : Text} {args : List Text}
    (h : arguments equation function = .ok args) :
    ∃ (c : Frame) (before after : List Piece),
      c.IsFirst (canonicalName function) (Token.ofEquation equation) ∧
      scan equation = before ++ .lexeme c.name (.ident c.name) :: after ∧
      before.filterMap token? = c.before ∧
      arguments (c.name ++ '(' :: Text.joinWith ", " args ++ [')']) function = .ok args := by
  obtain ⟨p, c, hp⟩ := exists_split h
  obtain ⟨hname, before, after, hscan, hbefore⟩ := hp.exists_name
  refine ⟨c, before, after, hp.isFirst, hscan, hbefore, ?_⟩
  have hfunction : canonicalName c.name = canonicalName function := hp.isFirst.named
  have hargument : ∀ x ∈ p.groups.map trimmedSource, Text.IsTrimmed x ∧
      Token.IsArgument (Token.ofEquation x) := by
    intro x hx
    obtain ⟨group, hg, rfl⟩ := List.mem_map.1 hx
    refine ⟨Text.isTrimmed_trim _, ?_⟩
    rw [trimmedSource, ofEquation_trim_run (hp.isRun group hg)]
    exact hp.isArgument group hg
  have hapart {first : List Piece} {others : List (List Piece)} (hg : p.groups = first :: others) :=
    apart_of_separated hp.separated (endsArgument_of_closes hp.isFirst.closes) hp.scan_eq hg
  have htrims := hp.trims
  generalize p.groups = groups at hargument hapart htrims
  cases htrims with
  | empty => exact arguments_empty hname hfunction
  | single hne => exact arguments_joined hname hfunction (hapart rfl) hargument fun _ => hne
  | several => exact arguments_joined hname hfunction (hapart rfl) hargument (by simp)

theorem crowdedCall_rejoined : arguments crowdedCall ['F'] = .ok crowdedArguments ∧
    ∃ c : Frame, c.IsFirst (canonicalName ['F']) (Token.ofEquation crowdedCall) ∧
      arguments (c.name ++ '(' :: Text.joinWith ", " crowdedArguments ++ [')']) ['F'] =
        .ok crowdedArguments := by
  obtain ⟨c, -, -, hfirst, -, -, hjoined⟩ := arguments_rejoined crowdedCall_arguments
  exact ⟨crowdedCall_arguments, c, hfirst, hjoined⟩

end StockFlow
