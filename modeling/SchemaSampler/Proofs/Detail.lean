import Mathlib.Data.List.Forall2
import SchemaSampler.Proofs.Acceptance
import SchemaSampler.Proofs.Wrapping

-- Larger depth budgets add detail to strategies and take nothing away.

namespace SchemaSampler

inductive Entries.Match (related : α → β → Prop) : String × α → String × β → Prop where
  | values (holds : related value other) : Match related (name, value) (name, other)

-- The second goes on where the first stops: at an empty list, or at fields that a record lacks.
inductive Strategy.Below : Strategy → Strategy → Prop where
  | same (strategy : Strategy) : Below strategy strategy
  | emptyList (element : Strategy) (longest : Option UInt32) :
      Below .emptyList (.list element longest)
  | list (elements : Below element fuller) : Below (.list element longest) (.list fuller longest)
  | record (fields : List.SublistForall₂ (Entries.Match Below) few many) :
      Below (.record few) (.record many)

namespace Strategy

variable {element fuller : Strategy} {longest : Option UInt32}

theorem listOf_below (below : Below element fuller) :
    Below (listOf element longest) (listOf fuller longest) := by
  unfold listOf
  split
  · exact .same _
  · exact .list below

theorem emptyList_below : Below emptyList (listOf element longest) := by
  unfold listOf
  split
  · exact .same _
  · exact .emptyList _ _

end Strategy

namespace Policy

variable {low high : Policy} {name : String} {path : List String}

theorem mayEnter_raised (raised : low.budget name ≤ high.budget name)
    (opened : low.mayEnter name path = true) : high.mayEnter name path = true := by
  rw [mayEnter_iff] at opened ⊢
  have more : low.allowed name ≤ high.allowed name := by
    have budgets := UInt32.le_iff_toNat_le.mp raised
    unfold allowed
    omega
  exact Nat.lt_of_lt_of_le opened more

end Policy

namespace Setup

structure Raised (low high : Setup) : Prop where
  schema : high.schema = low.schema
  scalars : high.scalars = low.scalars
  widths : ∀ name, low.policy.maxWidth name = high.policy.maxWidth name
  budgets : ∀ name ∈ low.schema.objects.names, low.policy.budget name ≤ high.policy.budget name

variable {low high : Setup} {path : List String} {ref : TypeRef} {name : String}

theorem Raised.alike (raised : low.Raised high) : low.Alike high where
  enums name := by rw [raised.schema]
  objects name := by
    rw [raised.schema]
    cases low.schema.objects.get? name <;> simp
  scalars name := by rw [raised.schema]
  queries name := by rw [raised.schema]
  widths := raised.widths
  overrides name := by rw [raised.scalars]

theorem compile_runs {setup : Setup} (acceptable : setup.Acceptable) :
    ∃ compiled, setup.compile = .ok compiled := by
  have plainly : setup.compile = setup.plainCompile := (follows_strategies {} setup.sound_start).1
  rw [plainly]
  exact compile_of_acceptable acceptable

inductive GivenBelow : Option Strategy → Option Strategy → Prop where
  | spent : GivenBelow none given
  | both (below : Strategy.Below strategy fuller) : GivenBelow (some strategy) (some fuller)

theorem fields_below {plain fuller : TypeRef → Except GenerationError (Option Strategy)}
    {entries : List (String × FieldDef)} {few many : List (String × Strategy)}
    (each : ∀ entry ∈ entries, ∀ given more, plain entry.2.ref = .ok given →
      fuller entry.2.ref = .ok more → GivenBelow given more)
    (makes : plainFields plain entries = .ok few) (makesToo : plainFields fuller entries = .ok many) :
    List.SublistForall₂ (Entries.Match Strategy.Below) few many := by
  induction entries generalizing few many with
  | nil =>
    cases makes
    exact .nil
  | cons entry rest ih =>
    unfold plainFields at makes makesToo
    obtain ⟨given, gives, makes⟩ := Outcome.bind_ok.mp makes
    obtain ⟨more, givesMore, makesToo⟩ := Outcome.bind_ok.mp makesToo
    have here := each entry (by simp) given more gives givesMore
    have later := fun inner member => each inner (List.mem_cons_of_mem _ member)
    cases here with
    | spent =>
      dsimp only at makes
      cases more with
      | none => exact ih later makes makesToo
      | some fuller =>
        obtain ⟨others, makesRest, makesToo⟩ := Outcome.bind_ok.mp makesToo
        cases makesToo
        exact .cons_right (ih later makes makesRest)
    | both below =>
      obtain ⟨others, makesRest, makes⟩ := Outcome.bind_ok.mp makes
      obtain ⟨othersToo, makesRestToo, makesToo⟩ := Outcome.bind_ok.mp makesToo
      cases makes
      cases makesToo
      exact .cons (.values below) (ih later makesRest makesRestToo)

theorem list_below (raised : low.Raised high) {inner : TypeRef} {given more : Option Strategy}
    (elements : ∀ {element fuller}, low.descent path inner = .ok element →
      high.descent path inner = .ok fuller → GivenBelow element fuller)
    (gives : low.descent path (.list inner) = .ok given)
    (givesMore : high.descent path (.list inner) = .ok more) : GivenBelow given more := by
  unfold descent plainRef at gives givesMore
  dsimp only at gives givesMore
  rw [← raised.widths] at givesMore
  by_cases shut : low.policy.maxWidth inner.base = some 0
  · rw [if_pos shut] at gives givesMore
    obtain ⟨_, _, made⟩ := Outcome.bind_ok.mp gives
    obtain ⟨_, _, madeToo⟩ := Outcome.bind_ok.mp givesMore
    cases made
    cases madeToo
    exact .both (.same _)
  · rw [if_neg shut] at gives givesMore
    obtain ⟨element, within, made⟩ := Outcome.bind_ok.mp gives
    obtain ⟨fuller, withinToo, madeToo⟩ := Outcome.bind_ok.mp givesMore
    have inside := elements within withinToo
    cases inside with
    | spent =>
      cases made
      cases fuller with
      | none =>
        cases madeToo
        exact .both (.same _)
      | some fuller =>
        cases madeToo
        exact .both Strategy.emptyList_below
    | both below =>
      cases made
      cases madeToo
      exact .both (Strategy.listOf_below below)

theorem named_below (raised : low.Raised high)
    (objects : ∀ given more, low.schema.classify name = .ok .object →
      low.below path name = .ok given → high.below path name = .ok more → GivenBelow given more)
    {given more : Option Strategy} (gives : low.descent path (.named name) = .ok given)
    (givesMore : high.descent path (.named name) = .ok more) : GivenBelow given more := by
  obtain ⟨kind, classified⟩ := classify_of_descent gives
  have classified : low.schema.classify name = .ok kind := classified
  have classifiedToo : high.schema.classify name = .ok kind := raised.schema ▸ classified
  rw [descent_named classified] at gives
  rw [descent_named classifiedToo] at givesMore
  cases kind with
  | enum =>
    obtain ⟨type, found⟩ := Schema.enum_of_classify classified
    have foundToo : high.schema.enums.get? name = some type := raised.schema ▸ found
    rw [plainNamed, plainEnum_eq found] at gives
    rw [plainNamed, plainEnum_eq foundToo] at givesMore
    cases gives
    cases givesMore
    exact .both (.same _)
  | scalar =>
    rw [plainNamed, raised.scalars] at givesMore
    obtain ⟨strategy, found, rfl⟩ := Outcome.map_ok.mp gives
    rw [found] at givesMore
    cases givesMore
    exact .both (.same _)
  | object => exact objects given more classified gives givesMore
  | query => cases gives

theorem ref_below (raised : low.Raised high)
    (objects : ∀ name given more, low.schema.classify name = .ok .object →
      low.below path name = .ok given → high.below path name = .ok more → GivenBelow given more)
    {given more : Option Strategy} (gives : low.descent path ref = .ok given)
    (givesMore : high.descent path ref = .ok more) : GivenBelow given more := by
  induction ref generalizing given more with
  | nonNull inner ih => exact ih gives givesMore
  | list inner ih => exact list_below raised ih gives givesMore
  | named name => exact named_below raised (objects name) gives givesMore

theorem object_below (raised : low.Raised high) {path : List String} {name : String}
    {given more : Option Strategy} (isObject : low.schema.classify name = .ok .object)
    (gives : low.below path name = .ok given) (givesMore : high.below path name = .ok more) :
    GivenBelow given more := by
  obtain ⟨type, found⟩ := Schema.object_of_classify isObject
  have foundToo : high.schema.objects.get? name = some type := raised.schema ▸ found
  rw [below_eq] at gives givesMore
  by_cases opened : low.policy.mayEnter name path = true
  · have openedToo := Policy.mayEnter_raised
      (raised.budgets name (Keyed.mem_names_of_get? found)) opened
    rw [if_pos opened, plainObject_eq found] at gives
    rw [if_pos openedToo, plainObject_eq foundToo] at givesMore
    obtain ⟨record, made, rfl⟩ := Outcome.map_ok.mp gives
    obtain ⟨recordToo, madeToo, rfl⟩ := Outcome.map_ok.mp givesMore
    obtain ⟨few, makes, made⟩ := Outcome.bind_ok.mp made
    obtain ⟨many, makesToo, madeToo⟩ := Outcome.bind_ok.mp madeToo
    cases made
    cases madeToo
    refine .both (.record (fields_below (fun entry _ given more => ?_) makes makesToo))
    exact ref_below raised fun _ _ _ => object_below raised
  · rw [if_neg opened] at gives
    cases gives
    exact .spent
termination_by low.left path
decreasing_by exact left_enter_lt (Schema.object_ok.mpr found) opened

theorem descent_below (raised : low.Raised high) {given more : Option Strategy}
    (gives : low.descent path ref = .ok given) (givesMore : high.descent path ref = .ok more) :
    GivenBelow given more :=
  ref_below raised (fun _ _ _ => object_below raised) gives givesMore

inductive OutcomeBelow : Except GenerationError Strategy → Except GenerationError Strategy → Prop where
  | error (cause : GenerationError) : OutcomeBelow (.error cause) (.error cause)
  | ok (below : Strategy.Below strategy fuller) : OutcomeBelow (.ok strategy) (.ok fuller)

theorem outcomeBelow_same (outcome : Except GenerationError Strategy) :
    OutcomeBelow outcome outcome := by
  cases outcome with
  | error cause => exact .error cause
  | ok strategy => exact .ok (.same strategy)

theorem type_below {one two : Compiled} (raised : low.Raised high)
    (compiles : low.compile = .ok one) (compilesToo : high.compile = .ok two) (name : String) :
    OutcomeBelow (one.type name) (two.type name) := by
  have sameClass : high.schema.classify name = low.schema.classify name := by rw [raised.schema]
  cases classified : low.schema.classify name with
  | error cause =>
    rw [type_eq_plainRoot compiles, type_eq_plainRoot compilesToo]
    simp only [plainRoot, descent, plainRef, sameClass, classified]
    exact outcomeBelow_same _
  | ok kind =>
    have classifiedToo := sameClass.trans classified
    by_cases scalar : kind = .scalar
    · subst scalar
      rw [type_eq_plainRoot compiles, type_eq_plainRoot compilesToo]
      simp only [plainRoot, descent_named classified, descent_named classifiedToo, plainNamed,
        raised.scalars]
      exact outcomeBelow_same _
    · obtain ⟨strategy, found⟩ := type_known compiles classified fun same => absurd same scalar
      obtain ⟨fuller, foundToo⟩ :=
        type_known compilesToo classifiedToo fun same => absurd same scalar
      have given := descent_below raised (descent_of_type compiles found)
        (descent_of_type compilesToo foundToo)
      rw [found, foundToo]
      cases given with
      | both below => exact .ok below

-- Both policies let a schema be compiled or neither does.
theorem raising_budgets_adds_detail (schema : Schema) (scalars : Scalars) (low high : Policy)
    (widths : ∀ name, low.maxWidth name = high.maxWidth name)
    (budgets : ∀ name ∈ schema.objects.names, low.budget name ≤ high.budget name) :
    ((∃ one, Setup.compile ⟨schema, low, scalars⟩ = .ok one) ↔
      ∃ two, Setup.compile ⟨schema, high, scalars⟩ = .ok two) ∧
    ∀ one two, Setup.compile ⟨schema, low, scalars⟩ = .ok one →
      Setup.compile ⟨schema, high, scalars⟩ = .ok two →
        ∀ name, OutcomeBelow (one.type name) (two.type name) := by
  have raised : Raised ⟨schema, low, scalars⟩ ⟨schema, high, scalars⟩ := ⟨rfl, rfl, widths, budgets⟩
  refine ⟨?_, fun one two => type_below raised⟩
  constructor
  · rintro ⟨one, compiles⟩
    exact compile_runs (raised.alike.acceptable (acceptable_of_ok compiles))
  · rintro ⟨two, compiles⟩
    exact compile_runs (raised.alike.symm.acceptable (acceptable_of_ok compiles))

-- Types that lead back to themselves, alone, in lists, and through one another.
def court : Schema :=
  (({} : Schema).withObject "player" [("name", .named "String"), ("rival", .named "player"),
    ("matches", .list (.list (.named "game")))]).withObject "game"
      [("players", .nonNull (.list (.named "player"))), ("next", .named "game")]

def shortDepths : Policy := (({} : Policy).withDefaultDepth 0).withWidth "game" 3

def longDepths : Policy := (((({} : Policy).withDefaultDepth 0).withDepth "player" 2).withDepth
  "coach" 1).withWidth "game" 3

theorem court_adds_detail : ∃ one two strategy fuller,
    Setup.compile ⟨court, shortDepths, {}⟩ = .ok one ∧
    Setup.compile ⟨court, longDepths, {}⟩ = .ok two ∧
    one.type "player" = .ok strategy ∧ two.type "player" = .ok fuller ∧
    strategy.extent ≠ fuller.extent ∧ OutcomeBelow (.ok strategy) (.ok fuller) := by
  have below := (raising_budgets_adds_detail court {} shortDepths longDepths (fun _ => rfl)
    (by decide)).2 _ _ rfl rfl "player"
  exact ⟨_, _, _, _, rfl, rfl, rfl, rfl, by decide, below⟩

end Setup

end SchemaSampler
