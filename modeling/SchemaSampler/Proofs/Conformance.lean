import SchemaSampler.Random.Cycle
import SchemaSampler.Proofs.Drawing
import SchemaSampler.Proofs.Walk

-- Generated values conform to the schema: what may stand for a reference below a path is
-- said by the schema, the policy and the scalars, with no word about how it is compiled.

namespace SchemaSampler

open SchemaSampler.Random

inductive Json.Bare : Json → Prop where
  | null : Bare .null
  | bool (value : Bool) : Bare (.bool value)
  | num (value : Number) : Bare (.num value)
  | str (value : String) : Bare (.str value)
  | arr (each : ∀ item ∈ items, Bare item) : Bare (.arr items)

variable (σ : Type) [Source σ]

-- A list whose object type is spent may be long, but then it holds lists only.
inductive Setup.Conforms (setup : Setup) : List String → TypeRef → Json → Prop where
  | nonNull (inside : Conforms setup path wrapped value) :
      Conforms setup path (.nonNull wrapped) value
  | list (bounded : items.length ≤
        ((setup.policy.maxWidth wrapped.base).getD defaultLongest).toNat)
      (each : ∀ item ∈ items, Conforms setup path wrapped item)
      (bare : setup.leavesOut path (.named wrapped.base) = true → (Json.arr items).Bare) :
      Conforms setup path (.list wrapped) (.arr items)
  | enum (isEnum : setup.schema.classify name = .ok .enum)
      (found : setup.schema.enums.get? name = some type) (member : value ∈ type.values) :
      Conforms setup path (.named name) (.str value)
  | emptyEnum (isEnum : setup.schema.classify name = .ok .enum)
      (found : setup.schema.enums.get? name = some type) (empty : type.values = []) :
      Conforms setup path (.named name) .null
  | scalar (isScalar : setup.schema.classify name = .ok .scalar)
      (given : setup.scalars.strategy name = .ok strategy)
      (drawn : Yields (strategy.draw defaultLongest : Draw σ Json) value) :
      Conforms setup path (.named name) value
  | object (isObject : setup.schema.classify name = .ok .object)
      (found : setup.schema.objects.get? name = some type)
      (names : Entries.names members = (type.fields.entries.filter fun entry =>
        !setup.leavesOut (path ++ [name]) entry.2.ref).map Prod.fst)
      (each : ∀ field value declared, (field, value) ∈ members →
        type.fields.get? field = some declared →
          Conforms setup (path ++ [name]) declared.ref value) :
      Conforms setup path (.named name) (.obj members)

namespace Setup

variable {σ} {setup : Setup} {path : List String} {name : String} {strategy : Strategy} {value : Json}

theorem list_drawn {inner : TypeRef}
    (gives : setup.descent path (.list inner) = .ok (some strategy))
    (drawn : Yields (strategy.draw defaultLongest : Draw σ Json) value) :
    ∃ items, value = .arr items ∧
      items.length ≤ ((setup.policy.maxWidth inner.base).getD defaultLongest).toNat ∧
      ∀ item ∈ items, ∃ element, setup.descent path inner = .ok (some element) ∧
        Yields (element.draw defaultLongest : Draw σ Json) item := by
  have nothing : strategy = .emptyList → value = .arr [] := by
    rintro rfl
    exact Strategy.constant_yields drawn
  unfold descent plainRef at gives
  dsimp only at gives
  split at gives
  · obtain ⟨_, _, made⟩ := Outcome.bind_ok.mp gives
    cases made
    exact ⟨[], nothing rfl, Nat.zero_le _, by simp⟩
  · obtain ⟨given, within, made⟩ := Outcome.bind_ok.mp gives
    cases given with
    | none =>
      cases made
      exact ⟨[], nothing rfl, Nat.zero_le _, by simp⟩
    | some element =>
      cases made
      obtain ⟨items, same, bounded, each⟩ := Strategy.listOf_yields drawn
      exact ⟨items, same, bounded, fun item member => ⟨element, within, each item member⟩⟩

theorem bare_of_spent {ref : TypeRef} (gives : setup.descent path ref = .ok (some strategy))
    (drawn : Yields (strategy.draw defaultLongest : Draw σ Json) value)
    (spent : setup.leavesOut path (.named ref.base) = true) : value.Bare := by
  induction ref generalizing strategy value with
  | nonNull inner ih => exact ih gives drawn spent
  | list inner ih =>
    obtain ⟨items, rfl, _, each⟩ := list_drawn gives drawn
    refine .arr fun item member => ?_
    obtain ⟨element, within, yields⟩ := each item member
    exact ih within yields spent
  | named name => cases (descent_none_iff gives).mpr spent

theorem enum_conforms (isEnum : setup.schema.classify name = .ok .enum)
    (gives : setup.plainEnum name = .ok strategy)
    (drawn : Yields (strategy.draw defaultLongest : Draw σ Json) value) :
    setup.Conforms σ path (.named name) value := by
  obtain ⟨type, found⟩ := Schema.enum_of_classify isEnum
  rw [plainEnum_eq found] at gives
  cases gives
  split at drawn
  · rename_i empty
    rw [Strategy.constant_yields drawn]
    exact .emptyEnum isEnum found (List.isEmpty_iff.mp empty)
  · rename_i any
    have any : type.values.map Json.str ≠ [] := by simpa using any
    obtain ⟨text, member, rfl⟩ := List.mem_map.mp (Strategy.oneOf_yields any drawn)
    exact .enum isEnum found member

theorem record_drawn {type : ObjectType} {fields : List (String × Strategy)}
    (record : setup.RecordBelow path name type fields)
    (drawn : Yields ((Strategy.record fields).draw defaultLongest : Draw σ Json) value) :
    ∃ members, value = .obj members ∧
      Entries.names members = (type.fields.entries.filter fun entry =>
        !setup.leavesOut (path ++ [name]) entry.2.ref).map Prod.fst ∧
      ∀ member ∈ members, ∃ strategy, (member.1, strategy) ∈ fields ∧
        Yields (strategy.draw defaultLongest : Draw σ Json) member.2 := by
  obtain ⟨members, paired, same⟩ := Strategy.record_yields drawn
  have names : Entries.names members = _ := (Strategy.drawn_names paired).trans record.names
  have distinct : (Entries.names members).Nodup := by
    rw [names]
    exact (List.filter_sublist.map Prod.fst).nodup type.fields.distinct
  refine ⟨members, ?_, names, fun member => Strategy.drawn_member paired⟩
  rw [same]
  exact congrArg Json.obj (Entries.gathered_of_distinct distinct)

theorem ref_conforms {ref : TypeRef}
    (objects : ∀ name strategy value, setup.schema.classify name = .ok .object →
      setup.descent path (.named name) = .ok (some strategy) →
        Yields (strategy.draw defaultLongest : Draw σ Json) value →
          setup.Conforms σ path (.named name) value)
    (gives : setup.descent path ref = .ok (some strategy))
    (drawn : Yields (strategy.draw defaultLongest : Draw σ Json) value) :
    setup.Conforms σ path ref value := by
  induction ref generalizing strategy value with
  | nonNull inner ih => exact .nonNull (ih gives drawn)
  | list inner ih =>
    have bare := bare_of_spent gives drawn
    obtain ⟨items, rfl, bounded, each⟩ := list_drawn gives drawn
    refine .list bounded (fun item member => ?_) bare
    obtain ⟨element, within, yields⟩ := each item member
    exact ih within yields
  | named name =>
    obtain ⟨kind, classified⟩ := classify_of_descent gives
    have classified : setup.schema.classify name = .ok kind := classified
    have made := (descent_named classified).symm.trans gives
    cases kind with
    | enum =>
      obtain ⟨given, found, same⟩ := Outcome.map_ok.mp made
      cases same
      exact enum_conforms classified found drawn
    | scalar =>
      obtain ⟨given, found, same⟩ := Outcome.map_ok.mp made
      cases same
      exact .scalar classified found drawn
    | object => exact objects name strategy value classified gives drawn
    | query => cases made

-- Below every object type that is entered less of the budgets is left.
theorem object_conforms {path : List String} {name : String} {strategy : Strategy} {value : Json}
    (isObject : setup.schema.classify name = .ok .object)
    (gives : setup.descent path (.named name) = .ok (some strategy))
    (drawn : Yields (strategy.draw defaultLongest : Draw σ Json) value) :
    setup.Conforms σ path (.named name) value := by
  obtain ⟨type, found⟩ := Schema.object_of_classify isObject
  obtain ⟨opened, fields, rfl, record⟩ := descent_object found gives
  obtain ⟨members, rfl, names, each⟩ := record_drawn record drawn
  refine .object isObject found names fun field inside declared member isField => ?_
  obtain ⟨strategy, among, yields⟩ := each _ member
  obtain ⟨given, isGiven, gives⟩ := record.strategies field strategy among
  rw [isField] at isGiven
  cases isGiven
  exact ref_conforms (fun _ _ _ => object_conforms) gives yields
termination_by setup.left path
decreasing_by exact left_enter_lt (Schema.object_ok.mpr found) opened

theorem descent_conforms {ref : TypeRef} (gives : setup.descent path ref = .ok (some strategy))
    (drawn : Yields (strategy.draw defaultLongest : Draw σ Json) value) :
    setup.Conforms σ path ref value :=
  ref_conforms (fun _ _ _ => object_conforms) gives drawn

theorem Conforms.object_value (conforms : setup.Conforms σ path (.named name) value)
    (declared : setup.schema.objects.contains name = true) : ∃ members, value = .obj members := by
  obtain ⟨type, there⟩ := Option.isSome_iff_exists.mp declared
  cases conforms with
  | enum isEnum => cases Schema.classify_object isEnum there
  | emptyEnum isEnum => cases Schema.classify_object isEnum there
  | scalar isScalar => cases Schema.classify_object isScalar there
  | object => exact ⟨_, rfl⟩

-- Nothing but an object ever stands for an object type, not even null.
theorem sampled_conforms {compiled : Compiled} (sampler : Sampler σ)
    (compiles : setup.compile = .ok compiled) (found : compiled.type name = .ok strategy)
    (bounded : sampler.longest = defaultLongest) (drawn : (sampler.sample strategy).1 = .ok value) :
    setup.Conforms σ [] (.named name) value ∧
      ∀ path inner item, setup.Conforms σ path (.named inner) item →
        setup.schema.objects.contains inner = true → ∃ members, item = .obj members := by
  obtain ⟨given, gives, made⟩ := Outcome.bind_ok.mp (type_rooted compiles found)
  obtain ⟨strategy, rfl⟩ := descent_nil gives
  cases made
  have yields : Yields (strategy.draw defaultLongest : Draw σ Json) value := by
    rw [← bounded]
    exact ⟨sampler.source, _, Prod.ext drawn rfl⟩
  exact ⟨descent_conforms gives yields, fun _ _ _ => Conforms.object_value⟩

-- A type that refers to itself, alone and in nested lists, and may not be entered again.
def fleet : Setup where
  schema := ((({} : Schema).withEnum "State" ["idle", "moving"]).withEnum "Mark" []).withObject
    "ship" [("state", .nonNull (.named "State")), ("mark", .named "Mark"),
      ("armed", .named "Boolean"), ("escorts", .list (.list (.named "ship"))),
      ("lead", .named "ship")]
  policy := (({} : Policy).withDepth "ship" 0).withWidth "ship" 2

def fleetSampler : Sampler Cycle where
  source := { words := [0, 3000000000, 3000000000] }

def fleetShip : Json :=
  .obj [("state", .str "idle"), ("mark", .null), ("armed", .bool true),
    ("escorts", .arr [.arr [], .arr []])]

theorem fleet_sampled_conforms : ∃ compiled strategy, fleet.compile = .ok compiled ∧
    compiled.type "ship" = .ok strategy ∧ (fleetSampler.sample strategy).1 = .ok fleetShip ∧
    fleet.Conforms Cycle [] (.named "ship") fleetShip :=
  ⟨_, _, rfl, rfl, rfl, (sampled_conforms fleetSampler rfl rfl rfl rfl).1⟩

end Setup

end SchemaSampler
