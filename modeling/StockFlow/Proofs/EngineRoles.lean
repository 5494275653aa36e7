import StockFlow.Engine.Classification
import StockFlow.Engine.Status
import StockFlow.Proofs.Catalogs

/-! Roles as an engine sees them, for every engine whose answers depend only on what it is asked.
The types of the names are asked for in turn, and then what the auxiliaries use, in the order of the
names. So the roles follow a rule for each name alone, which counts stocks by their types and never
by a role given before, and the first query that fails is the error of the whole. -/
namespace StockFlow.Engine

variable {ε : Type} {ask : Text → Attribute → Except ε Answer}

/-! ### Queries in turn -/

/-- A name, and what an engine is asked about it. -/
abbrev Query := Text × Attribute

/-- The engine answers the query. -/
def Answers (ask : Text → Attribute → Except ε Answer) (q : Query) : Prop :=
  ∃ answer, ask q.1 q.2 = .ok answer

/-- The first of the queries that fails does so with this error. -/
def FirstFailure (ask : Text → Attribute → Except ε Answer) (queries : List Query) (e : ε) : Prop :=
  ∃ before q after, queries = before ++ q :: after ∧ (∀ p ∈ before, Answers ask p) ∧
    ask q.1 q.2 = .error e

theorem not_answers_of_error {q : Query} {e : ε} (h : ask q.1 q.2 = .error e) :
    ¬ Answers ask q := by
  rintro ⟨answer, ha⟩
  simp [h] at ha

theorem not_firstFailure_of_answers {queries : List Query} (h : ∀ q ∈ queries, Answers ask q)
    (e : ε) : ¬ FirstFailure ask queries e := by
  rintro ⟨before, q, after, rfl, -, he⟩
  exact not_answers_of_error he (h q (by simp))

theorem firstFailure_cons {q : Query} {queries : List Query} {e : ε} :
    FirstFailure ask (q :: queries) e ↔
      ask q.1 q.2 = .error e ∨ Answers ask q ∧ FirstFailure ask queries e := by
  constructor
  · rintro ⟨before, p, after, heq, hbefore, he⟩
    cases before with
    | nil =>
      obtain ⟨rfl, rfl⟩ := List.cons.inj heq
      exact .inl he
    | cons b before =>
      obtain ⟨rfl, rfl⟩ := List.cons.inj heq
      obtain ⟨hq, hbefore⟩ := List.forall_mem_cons.1 hbefore
      exact .inr ⟨hq, before, p, after, rfl, hbefore, he⟩
  · rintro (he | ⟨hq, before, p, after, rfl, hbefore, he⟩)
    · exact ⟨[], q, queries, rfl, by simp, he⟩
    · exact ⟨q :: before, p, after, rfl, List.forall_mem_cons.2 ⟨hq, hbefore⟩, he⟩

theorem firstFailure_append {queries more : List Query} {e : ε} :
    FirstFailure ask (queries ++ more) e ↔ FirstFailure ask queries e ∨
      (∀ q ∈ queries, Answers ask q) ∧ FirstFailure ask more e := by
  induction queries with
  | nil => simp [not_firstFailure_of_answers]
  | cons q queries ih =>
    rw [List.cons_append, firstFailure_cons, firstFailure_cons, ih, List.forall_mem_cons]
    simp only [and_or_left, or_assoc, and_assoc]

theorem exists_firstFailure_iff {queries : List Query} :
    (∃ e, FirstFailure ask queries e) ↔ ∃ q ∈ queries, ∃ e, ask q.1 q.2 = .error e := by
  constructor
  · rintro ⟨e, before, q, after, rfl, -, he⟩
    exact ⟨q, by simp, e, he⟩
  · induction queries with
    | nil => simp
    | cons q queries ih =>
      rintro ⟨p, hp, e, he⟩
      cases hq : ask q.1 q.2 with
      | error e' => exact ⟨e', firstFailure_cons.2 (.inl hq)⟩
      | ok answer =>
        have hp : p ∈ queries := by
          refine (List.mem_cons.1 hp).resolve_left ?_
          rintro rfl
          simp [hq] at he
        obtain ⟨e', h⟩ := ih ⟨p, hp, e, he⟩
        exact ⟨e', firstFailure_cons.2 (.inr ⟨⟨answer, hq⟩, h⟩)⟩

/-! ### One pass over names -/

/-- Asks for one attribute of each name, in turn, and enters the roles that the answers give. -/
def fill (ask : Text → Attribute → Except ε Answer) (a : Attribute) (role? : Answer → Option Role)
    (roles : RoleTable) (names : List Text) : Except ε RoleTable :=
  names.foldlM (fun roles name => do
    match role? (← ask name a) with
    | some role => return roles.insert (name, role)
    | none => return roles) roles

section Fill

variable {a : Attribute} {role? : Answer → Option Role} {roles : RoleTable}

theorem fill_cons (name : Text) (names : List Text) :
    fill ask a role? roles (name :: names) = match ask name a with
      | .error e => .error e
      | .ok answer => fill ask a role?
          ((role? answer).elim roles fun role => roles.insert (name, role)) names := by
  rw [fill, List.foldlM_cons]
  cases ask name a with
  | error e => rfl
  | ok answer => cases h : role? answer <;> simp [bind, Except.bind, h, fill, pure, Except.pure]

theorem fill_eq_error_iff {names : List Text} {e : ε} : fill ask a role? roles names = .error e ↔
    FirstFailure ask (names.map fun name => (name, a)) e := by
  induction names generalizing roles with
  | nil => simp [fill, not_firstFailure_of_answers, pure, Except.pure]
  | cons name names ih =>
    rw [fill_cons, List.map_cons, firstFailure_cons]
    cases h : ask name a with
    | error e' => simp [Answers, h]
    | ok answer => simp [Answers, h, ih]

theorem answers_of_fill {names : List Text} {table : RoleTable}
    (h : fill ask a role? roles names = .ok table) : ∀ name ∈ names, Answers ask (name, a) := by
  induction names generalizing roles with
  | nil => simp
  | cons name names ih =>
    rw [fill_cons] at h
    cases ha : ask name a with
    | error e => simp [ha] at h
    | ok answer =>
      rw [ha] at h
      exact List.forall_mem_cons.2 ⟨⟨answer, ha⟩, ih h⟩

/-- A pass changes the roles of the names that it asks for, if their answers give one. -/
theorem find?_fill {names : List Text} {table : RoleTable}
    (h : fill ask a role? roles names = .ok table) (k : Text) :
    table.find? k = ((if k ∈ names then (ask k a).toOption.bind role? else none).map
      fun role => (k, role)).or (roles.find? k) := by
  induction names generalizing roles with
  | nil =>
    obtain rfl := Except.ok.inj h
    simp
  | cons name names ih =>
    rw [fill_cons] at h
    cases ha : ask name a with
    | error e => simp [ha] at h
    | ok answer =>
      rw [ha] at h
      rw [ih h]
      by_cases hk : k = name
      · subst hk
        have hanswer : (ask k a).toOption = some answer := by rw [ha]; rfl
        cases hr : role? answer <;> by_cases hmem : k ∈ names <;>
          simp [hanswer, hr, hmem, Catalog.find?_insert]
      · cases hr : role? answer <;> simp [hk, Ne.symm hk, Catalog.find?_insert]

end Fill

/-! ### Types and uses -/

/-- The type of a name, as far as the engine gives one. -/
def typeOf? (ask : Text → Attribute → Except ε Answer) (name : Text) : Option Text :=
  (ask name .type).toOption.map Answer.asText

/-- The names that are not reserved. -/
def listed (d : Dialect) (names : List Text) : List Text :=
  names.filter fun name => !d.reserves name

/-- The listed names of this type, in their order. -/
def listedOfType (d : Dialect) (ask : Text → Attribute → Except ε Answer) (names : List Text)
    (type : String) : NameSet :=
  Catalog.ofList ((listed d names).filter fun name => typeOf? ask name = some type.toList)

/-- The engine says of the name that it uses a stock, which is a listed name of that type. -/
def usesStock (d : Dialect) (ask : Text → Attribute → Except ε Answer) (names : List Text)
    (name : Text) : Bool :=
  match ask name .uses with
  | .ok answer => answer.asList.any (listedOfType d ask names "Level").items.contains
  | .error _ => false

/-- The role of a name: that of its type, but for an auxiliary that uses a stock. -/
def roleOf? (d : Dialect) (ask : Text → Attribute → Except ε Answer) (names : List Text)
    (name : Text) : Option Role :=
  if name ∈ listed d names then
    if typeOf? ask name = some "Auxiliary".toList ∧ usesStock d ask names name then some .flow
    else (typeOf? ask name).bind roleOfType?
  else none

/-- All types are asked for in the order of the list, repetitions included, and then what the
auxiliaries use, once for each of them and in the order of the names. -/
def queries (d : Dialect) (ask : Text → Attribute → Except ε Answer) (names : List Text) :
    List Query :=
  (listed d names).map (fun name => (name, .type)) ++
    (listedOfType d ask names "Auxiliary").items.map fun name => (name, .uses)

variable {d : Dialect} {names : List Text} {table : RoleTable}

theorem mem_listed {name : Text} :
    name ∈ listed d names ↔ name ∈ names ∧ d.reserves name = false := by
  simp [listed]

theorem mem_listedOfType {type : String} {name : Text} :
    name ∈ (listedOfType d ask names type).items ↔
      name ∈ listed d names ∧ typeOf? ask name = some type.toList := by
  rw [listedOfType, Catalog.mem_ofList, List.mem_filter]
  simp

/-- The role that a variable of each type has of itself. -/
inductive HasRole : Text → Role → Prop
  | level : HasRole "Level".toList .stock
  | auxiliary : HasRole "Auxiliary".toList .auxiliary
  | constant : HasRole "Constant".toList .constant
  | other {type : Text}
      (h : ∀ known ∈ ["Constraint", "Level", "Auxiliary", "Constant"], type ≠ known.toList) :
      HasRole type .unclassified

theorem roleOfType?_eq_some_iff {type : Text} {role : Role} :
    roleOfType? type = some role ↔ HasRole type role := by
  constructor
  · intro h
    unfold roleOfType? at h
    split_ifs at h with hconstraint hlevel hauxiliary hconstant
      <;> obtain rfl := Option.some.inj h
    · exact hlevel ▸ .level
    · exact hauxiliary ▸ .auxiliary
    · exact hconstant ▸ .constant
    · refine .other ?_
      simp only [List.forall_mem_cons, List.not_mem_nil, false_implies, implies_true, and_true]
      exact ⟨hconstraint, hlevel, hauxiliary, hconstant⟩
  · intro h
    cases h with
    | level => rfl
    | auxiliary => rfl
    | constant => rfl
    | other h =>
      simp only [List.forall_mem_cons, List.not_mem_nil, false_implies, implies_true, and_true] at h
      obtain ⟨hconstraint, hlevel, hauxiliary, hconstant⟩ := h
      rw [roleOfType?, if_neg hconstraint, if_neg hlevel, if_neg hauxiliary, if_neg hconstant]

theorem roleOfType?_eq_none_iff {type : Text} :
    roleOfType? type = none ↔ type = "Constraint".toList := by
  by_cases h : type = "Constraint".toList
  · exact iff_of_true (if_pos h) h
  · refine iff_of_false ?_ h
    rw [roleOfType?, if_neg h]
    split_ifs <;> simp

theorem HasRole.unique {type : Text} {role role' : Role} (h : HasRole type role)
    (h' : HasRole type role') : role = role' :=
  Option.some.inj ((roleOfType?_eq_some_iff.2 h).symm.trans (roleOfType?_eq_some_iff.2 h'))

theorem HasRole.ne_flow {type : Text} {role : Role} (h : HasRole type role) : role ≠ .flow := by
  cases h <;> simp

/-- A role other than unclassified comes from one type only. -/
theorem HasRole.iff_eq {type type' : Text} {role : Role} (h : HasRole type role)
    (hne : role ≠ .unclassified) : HasRole type' role ↔ type' = type := by
  constructor
  · intro h'
    cases h with
    | level => cases h'; rfl
    | auxiliary => cases h'; rfl
    | constant => cases h'; rfl
    | other => exact absurd rfl hne
  · rintro rfl
    exact h

theorem mem_namesWithRole {roles : RoleTable} {role : Role} {name : Text} :
    name ∈ namesWithRole roles role ↔ roles.find? name = some (name, role) := by
  rw [Catalog.find?_eq_some, namesWithRole, List.mem_map]
  constructor
  · rintro ⟨⟨_, _⟩, hmem, rfl⟩
    obtain ⟨hitem, hrole⟩ := List.mem_filter.1 hmem
    obtain rfl : _ = role := by simpa using hrole
    exact ⟨hitem, rfl⟩
  · rintro ⟨hitem, -⟩
    exact ⟨(name, role), List.mem_filter.2 ⟨hitem, by simp⟩, rfl⟩

theorem find?_typeRoles (h : typeRoles ask (listed d names) = .ok table) (k : Text) :
    table.find? k = (if k ∈ listed d names then (typeOf? ask k).bind roleOfType? else none).map
      fun role => (k, role) := by
  have hfill : fill ask .type (fun answer => roleOfType? answer.asText) Catalog.empty
      (listed d names) = .ok table := h
  rw [find?_fill hfill, Catalog.find?_empty, Option.or_none, typeOf?, Option.bind_map]
  rfl

theorem mem_namesWithRole_typeRoles {role : Role} {type : String}
    (hrole : HasRole type.toList role) (hne : role ≠ .unclassified)
    (h : typeRoles ask (listed d names) = .ok table) (k : Text) :
    k ∈ namesWithRole table role ↔ k ∈ listed d names ∧ typeOf? ask k = some type.toList := by
  rw [mem_namesWithRole, find?_typeRoles h]
  by_cases hk : k ∈ listed d names
  · simp [hk, Option.bind_eq_some_iff, roleOfType?_eq_some_iff, hrole.iff_eq hne]
  · simp [hk]

/-- The names with a role, which stand in order as their roles do. -/
theorem namesWithRole_typeRoles {role : Role} {type : String}
    (hrole : HasRole type.toList role) (hne : role ≠ .unclassified)
    (h : typeRoles ask (listed d names) = .ok table) :
    namesWithRole table role = (listedOfType d ask names type).items := by
  have hincreasing : (namesWithRole table role).Pairwise fun a b => id a < id b :=
    List.pairwise_map.2 (table.increasing.filter _)
  have heq : (⟨namesWithRole table role, hincreasing⟩ : NameSet) = listedOfType d ask names type :=
    Catalog.ext_items fun k => (mem_namesWithRole_typeRoles hrole hne h k).trans mem_listedOfType.symm
  exact congrArg Catalog.items heq

/-- The second pass, after the types have given the stocks. -/
theorem roles_of_typeRoles {typed : RoleTable} (h : typeRoles ask (listed d names) = .ok typed) :
    roles d ask names = fill ask .uses (fun answer =>
        if answer.asList.any (namesWithRole typed .stock).contains then some .flow else none)
      typed (listedOfType d ask names "Auxiliary").items := by
  have hroles : roles d ask names = (namesWithRole typed .auxiliary).foldlM (fun roles name => do
      let used := (← ask name .uses).asList
      if used.any (namesWithRole typed .stock).contains then return roles.insert (name, .flow)
      else return roles) typed := by
    unfold listed at h
    simp only [roles, h]
    rfl
  rw [hroles, namesWithRole_typeRoles .auxiliary (by decide) h, fill]
  congr 1
  funext roles name
  cases ask name .uses with
  | error e => rfl
  | ok answer =>
    simp only [bind, Except.bind]
    split <;> rfl

theorem roles_of_failure {e : ε} (h : typeRoles ask (listed d names) = .error e) :
    roles d ask names = .error e := by
  unfold listed at h
  simp only [roles, h]
  rfl

/-- The first failing query, if any, is the error. -/
theorem roles_eq_error_iff {e : ε} :
    roles d ask names = .error e ↔ FirstFailure ask (queries d ask names) e := by
  have htypes {e : ε} : typeRoles ask (listed d names) = .error e ↔
      FirstFailure ask ((listed d names).map fun name => (name, .type)) e := fill_eq_error_iff
  rw [queries, firstFailure_append, ← htypes]
  cases h : typeRoles ask (listed d names) with
  | error e' =>
    rw [roles_of_failure h]
    refine ⟨.inl, fun he => he.resolve_right fun hanswers => ?_⟩
    exact not_firstFailure_of_answers hanswers.1 e' (htypes.1 h)
  | ok typed =>
    have hanswers : ∀ q ∈ (listed d names).map fun name => (name, .type), Answers ask q :=
      List.forall_mem_map.2 (answers_of_fill h)
    rw [roles_of_typeRoles h, fill_eq_error_iff]
    refine ⟨fun he => .inr ⟨hanswers, he⟩, fun he => ?_⟩
    rcases he with he | ⟨-, he⟩
    · simp at he
    · exact he

theorem find?_roles (h : roles d ask names = .ok table) (k : Text) :
    table.find? k = (roleOf? d ask names k).map fun role => (k, role) := by
  cases htyped : typeRoles ask (listed d names) with
  | error e => simp [roles_of_failure htyped] at h
  | ok typed =>
    rw [roles_of_typeRoles htyped] at h
    rw [find?_fill h, find?_typeRoles htyped, namesWithRole_typeRoles .level (by decide) htyped,
      roleOf?]
    by_cases hk : k ∈ listed d names
    · rw [if_pos hk, if_pos hk]
      by_cases htype : typeOf? ask k = some "Auxiliary".toList
      · rw [if_pos (mem_listedOfType.2 ⟨hk, htype⟩), htype, Option.bind_some,
          roleOfType?_eq_some_iff.2 .auxiliary]
        cases huses : ask k .uses with
        | error e =>
          have hanswers := answers_of_fill h k (mem_listedOfType.2 ⟨hk, htype⟩)
          exact absurd hanswers (not_answers_of_error huses)
        | ok answer =>
          simp only [usesStock, huses, Except.toOption, Option.bind_some, true_and]
          split <;> rfl
      · rw [if_neg fun hmem => htype (mem_listedOfType.1 hmem).2, if_neg fun hs => htype hs.1]
        rfl
    · rw [if_neg fun hmem => hk (mem_listedOfType.1 hmem).1, if_neg hk, if_neg hk]
      rfl

/-! ### What the rule says -/

theorem usesStock_iff {name : Text} : usesStock d ask names name = true ↔
    ∃ answer, ask name .uses = .ok answer ∧ ∃ used ∈ answer.asList,
      used ∈ names ∧ d.reserves used = false ∧ typeOf? ask used = some "Level".toList := by
  have hstock {used : Text} : (listedOfType d ask names "Level").items.contains used = true ↔
      used ∈ names ∧ d.reserves used = false ∧ typeOf? ask used = some "Level".toList := by
    rw [List.contains_iff_mem, mem_listedOfType, mem_listed, and_assoc]
  cases h : ask name .uses with
  | error e => simp [usesStock, h]
  | ok answer =>
    simp only [usesStock, h, List.any_eq_true, hstock, Except.ok.injEq, exists_eq_left']

theorem roleOf?_eq_flow {name : Text} : roleOf? d ask names name = some .flow ↔
    name ∈ listed d names ∧ typeOf? ask name = some "Auxiliary".toList ∧
      usesStock d ask names name = true := by
  have hown : (typeOf? ask name).bind roleOfType? ≠ some .flow := by
    cases typeOf? ask name with
    | none => simp
    | some type => exact fun h => (roleOfType?_eq_some_iff.1 h).ne_flow rfl
  unfold roleOf?
  split
  next hk =>
    split
    next hs => exact ⟨fun _ => ⟨hk, hs⟩, fun _ => rfl⟩
    next hs => exact ⟨fun h => absurd h hown, fun h => absurd h.2 hs⟩
  next hk => exact ⟨nofun, fun h => absurd h.1 hk⟩

theorem roleOf?_of_ne_flow {name : Text} {role : Role} (h : roleOf? d ask names name = some role)
    (hne : role ≠ .flow) : ∃ type, typeOf? ask name = some type ∧ HasRole type role := by
  unfold roleOf? at h
  split at h
  · split at h
    · exact absurd (Option.some.inj h).symm hne
    · obtain ⟨type, htype, hrole⟩ := Option.bind_eq_some_iff.1 h
      exact ⟨type, htype, roleOfType?_eq_some_iff.1 hrole⟩
  · exact nomatch h

theorem isSome_roleOf? {name : Text} : (roleOf? d ask names name).isSome = true ↔
    name ∈ listed d names ∧ ∃ type, typeOf? ask name = some type ∧ type ≠ "Constraint".toList := by
  have hown : ((typeOf? ask name).bind roleOfType?).isSome = true ↔
      ∃ type, typeOf? ask name = some type ∧ type ≠ "Constraint".toList := by
    cases typeOf? ask name with
    | none => simp
    | some type =>
      rw [Option.bind_some, Option.isSome_iff_ne_none, Ne, roleOfType?_eq_none_iff]
      simp only [Option.some.injEq, exists_eq_left']
  unfold roleOf?
  split
  next hk =>
    rw [← hown]
    split
    next hs =>
      rw [hs.1, Option.bind_some, roleOfType?_eq_some_iff.2 .auxiliary]
      exact ⟨fun _ => ⟨hk, rfl⟩, fun _ => rfl⟩
    · exact ⟨fun h => ⟨hk, h⟩, And.right⟩
  next hk => exact ⟨nofun, fun h => absurd h.1 hk⟩

/-! ### The names matter as a set -/

section Reordered

variable {names' : List Text} (hnames : ∀ name, name ∈ names' ↔ name ∈ names)
include hnames

theorem listedOfType_congr (type : String) :
    listedOfType d ask names' type = listedOfType d ask names type :=
  Catalog.ext_items fun name => by
    rw [mem_listedOfType, mem_listedOfType, mem_listed, mem_listed, hnames]

theorem usesStock_congr (name : Text) :
    usesStock d ask names' name = usesStock d ask names name := by
  rw [usesStock, usesStock, listedOfType_congr hnames]

theorem roleOf?_congr (name : Text) : roleOf? d ask names' name = roleOf? d ask names name := by
  have hlisted : name ∈ listed d names' ↔ name ∈ listed d names := by
    rw [mem_listed, mem_listed, hnames]
  rw [roleOf?, roleOf?, usesStock_congr hnames]
  simp only [hlisted]

end Reordered

theorem exists_failure_iff : (∃ e, roles d ask names = .error e) ↔
    ∃ name ∈ names, d.reserves name = false ∧ ((∃ e, ask name .type = .error e) ∨
      typeOf? ask name = some "Auxiliary".toList ∧ ∃ e, ask name .uses = .error e) := by
  simp only [roles_eq_error_iff, exists_firstFailure_iff]
  constructor
  · rintro ⟨q, hq, he⟩
    rcases List.mem_append.1 hq with hq | hq
    · obtain ⟨name, hname, rfl⟩ := List.mem_map.1 hq
      obtain ⟨hmem, hreserves⟩ := mem_listed.1 hname
      exact ⟨name, hmem, hreserves, .inl he⟩
    · obtain ⟨name, hname, rfl⟩ := List.mem_map.1 hq
      obtain ⟨hlisted, htype⟩ := mem_listedOfType.1 hname
      obtain ⟨hmem, hreserves⟩ := mem_listed.1 hlisted
      exact ⟨name, hmem, hreserves, .inr ⟨htype, he⟩⟩
  · rintro ⟨name, hmem, hreserves, he | ⟨htype, he⟩⟩
    · refine ⟨(name, .type), List.mem_append_left _ (List.mem_map.2 ⟨name, ?_, rfl⟩), he⟩
      exact mem_listed.2 ⟨hmem, hreserves⟩
    · refine ⟨(name, .uses), List.mem_append_right _ (List.mem_map.2 ⟨name, ?_, rfl⟩), he⟩
      exact mem_listedOfType.2 ⟨mem_listed.2 ⟨hmem, hreserves⟩, htype⟩

theorem roles_congr {names' : List Text} (hnames : ∀ name, name ∈ names' ↔ name ∈ names)
    (h : roles d ask names = .ok table) : roles d ask names' = .ok table := by
  cases h' : roles d ask names' with
  | error e =>
    have hfails := exists_failure_iff.1 ⟨e, h'⟩
    simp only [hnames] at hfails
    obtain ⟨e', he⟩ := exists_failure_iff.2 hfails
    exact nomatch h.symm.trans he
  | ok table' =>
    congr 1
    refine Catalog.ext_find? fun name => ?_
    rw [find?_roles h', find?_roles h, roleOf?_congr hnames]

/-- The roles that an engine gives have just the listed names for keys that are neither reserved nor
constraints. A name is a flow just when it is an auxiliary and uses a stock that is listed itself;
every other name has the role of its type. The list counts as a set. No roles are given just when a
name has no type, or an auxiliary has no uses, and then for the first query that fails. -/
theorem roles_exact (d : Dialect) (ask : Text → Attribute → Except ε Answer) (names : List Text) :
    (∀ table, roles d ask names = .ok table →
      (∀ name, table.contains name = true ↔ name ∈ names ∧ d.reserves name = false ∧
        ∃ type, typeOf? ask name = some type ∧ type ≠ "Constraint".toList) ∧
      (∀ name, table.find? name = some (name, .flow) ↔ name ∈ names ∧ d.reserves name = false ∧
        typeOf? ask name = some "Auxiliary".toList ∧
        ∃ answer, ask name .uses = .ok answer ∧ ∃ used ∈ answer.asList, used ∈ names ∧
          d.reserves used = false ∧ typeOf? ask used = some "Level".toList) ∧
      (∀ name role, table.find? name = some (name, role) → role ≠ .flow →
        ∃ type, typeOf? ask name = some type ∧ HasRole type role) ∧
      ∀ names', (∀ name, name ∈ names' ↔ name ∈ names) → roles d ask names' = .ok table) ∧
    ((∃ e, roles d ask names = .error e) ↔ ∃ name ∈ names, d.reserves name = false ∧
      ((∃ e, ask name .type = .error e) ∨
        typeOf? ask name = some "Auxiliary".toList ∧ ∃ e, ask name .uses = .error e)) ∧
    ∀ e, roles d ask names = .error e ↔ FirstFailure ask (queries d ask names) e := by
  refine ⟨fun table h => ?_, exists_failure_iff, fun e => roles_eq_error_iff⟩
  have hfind {name : Text} {role : Role} :
      table.find? name = some (name, role) ↔ roleOf? d ask names name = some role := by
    rw [find?_roles h, Option.map_eq_some_iff]
    simp
  refine ⟨fun name => ?_, fun name => ?_, fun name role hr hne => ?_, fun names' hnames => ?_⟩
  · rw [Catalog.contains_eq_isSome, find?_roles h, Option.isSome_map, isSome_roleOf?, mem_listed,
      and_assoc]
  · rw [hfind, roleOf?_eq_flow, mem_listed, usesStock_iff, and_assoc]
  · exact roleOf?_of_ne_flow (hfind.1 hr) hne
  · exact roles_congr hnames h

/-- An engine that knows a stock, the flow into it, what uses that flow, a constant and a
constraint. -/
def tankEngine (name : Text) : Attribute → Except Failure Answer
  | .type =>
    if name = "level".toList then .ok (.text "Level".toList)
    else if name = "full".toList then .ok (.text "Constraint".toList)
    else if name = "capacity".toList then .ok (.text "Constant".toList)
    else .ok (.text "Auxiliary".toList)
  | .uses =>
    if name = "inflow".toList then .ok (.list ["delay".toList, "level".toList])
    else if name = "demand".toList then .ok (.text "inflow".toList)
    else .error ⟨-1, none⟩
  | _ => .error ⟨-1, none⟩

def tankNames : List Text :=
  ["level", "demand", "inflow", "full", "Time", "capacity", "inflow"].map String.toList

theorem tankEngine_roles : ∃ table, roles .standard tankEngine tankNames = .ok table ∧
    table.find? "inflow".toList = some ("inflow".toList, .flow) ∧
    table.find? "demand".toList = some ("demand".toList, .auxiliary) ∧
    table.find? "level".toList = some ("level".toList, .stock) ∧
    table.find? "capacity".toList = some ("capacity".toList, .constant) ∧
    table.contains "full".toList = false ∧
    roles .standard tankEngine tankNames.reverse = .ok table := by
  obtain ⟨table, htable⟩ : ∃ table, roles .standard tankEngine tankNames = .ok table := ⟨_, rfl⟩
  obtain ⟨hkeys, hflow, hown, hset⟩ := (roles_exact .standard tankEngine tankNames).1 table htable
  have hentry {name type : Text} {role : Role} (hmem : name ∈ tankNames)
      (hreserves : Dialect.standard.reserves name = false)
      (htype : typeOf? tankEngine name = some type) (hrole : HasRole type role)
      (hne : table.find? name ≠ some (name, .flow)) : table.find? name = some (name, role) := by
    have hvariable : type ≠ "Constraint".toList := by
      rintro rfl
      exact nomatch roleOfType?_eq_some_iff.2 hrole
    have hkey := (hkeys name).2 ⟨hmem, hreserves, type, htype, hvariable⟩
    rw [Catalog.contains_eq_isSome] at hkey
    obtain ⟨⟨n, role'⟩, hfind⟩ := Option.isSome_iff_exists.1 hkey
    obtain rfl : n = name := Catalog.key_of_find? hfind
    obtain ⟨type', htype', hrole'⟩ := hown n role' hfind (by rintro rfl; exact hne hfind)
    obtain rfl := Option.some.inj (htype.symm.trans htype')
    rw [hfind, hrole'.unique hrole]
  have hnot {name : Text} (h : typeOf? tankEngine name ≠ some "Auxiliary".toList) :
      table.find? name ≠ some (name, .flow) := fun hfind => h ((hflow name).1 hfind).2.2.1
  have hdemand : table.find? "demand".toList ≠ some ("demand".toList, .flow) := by
    -- the one name that it uses is a flow, which is no stock
    intro hfind
    obtain ⟨-, -, -, answer, huses, used, hused, -, -, hlevel⟩ := (hflow _).1 hfind
    obtain rfl : .text "inflow".toList = answer := Except.ok.inj huses
    obtain rfl : used = "inflow".toList := List.mem_singleton.1 hused
    exact absurd hlevel (by decide)
  have hfull : ¬ table.contains "full".toList = true := by
    intro hcontains
    obtain ⟨-, -, type, htype, hne⟩ := (hkeys _).1 hcontains
    exact hne (Option.some.inj htype).symm
  refine ⟨table, htable, (hflow _).2 ?_, hentry (by decide) (by decide) rfl .auxiliary hdemand,
    hentry (by decide) (by decide) rfl .level (hnot (by decide)),
    hentry (by decide) (by decide) rfl .constant (hnot (by decide)),
    Bool.eq_false_iff.2 hfull, hset _ fun _ => List.mem_reverse⟩
  exact ⟨by decide, by decide, rfl, _, rfl, "level".toList, by decide, by decide, by decide, rfl⟩

end StockFlow.Engine
