import SchemaSampler.Proofs.MemoSoundness

-- Which schemas compile: nothing that a compilation has to refuse hides behind spent
-- budgets, lists without room, or what is remembered.

namespace SchemaSampler

namespace Setup

variable {setup : Setup} {path : List String} {ref : TypeRef} {name : String}

structure Acceptable (setup : Setup) : Prop where
  refs : ∀ ref, setup.schema.Refers ref → ∃! kind, setup.schema.Declares ref.base kind
  types : ∀ name, name ∈ setup.schema.enums.names ∨ name ∈ setup.schema.objects.names →
    ∃! kind, setup.schema.Declares name kind
  reached : ∀ ref, setup.schema.Refers ref → setup.schema.Declares ref.base .scalar →
    ref.isList = false ∨ setup.policy.maxWidth ref.base ≠ some 0 →
      setup.scalars.has ref.base = true
  overrides : ∀ name own, setup.schema.Declares name .scalar →
    setup.scalars.overrides.get? name = some own → own.check = .ok ()

def Gives (setup : Setup) (path : List String) (ref : TypeRef) : Prop :=
  ∃ given, setup.descent path ref = .ok given

theorem plainRoot_ok_iff :
    (∃ strategy, setup.plainRoot ref = .ok strategy) ↔ setup.Gives [] ref :=
  Outcome.bind_pure_runs_iff

theorem plainFields_ok_iff {plain : TypeRef → Except GenerationError (Option Strategy)}
    {entries : List (String × FieldDef)} :
    (∃ fields, plainFields plain entries = .ok fields) ↔
      ∀ entry ∈ entries, ∃ given, plain entry.2.ref = .ok given := by
  induction entries with
  | nil =>
    constructor
    · intro _ entry member
      cases member
    · intro _
      exact ⟨[], rfl⟩
  | cons entry rest ih =>
    unfold plainFields
    rw [List.forall_mem_cons, ← ih]
    simp only [Outcome.bind_ok]
    constructor
    · rintro ⟨fields, given, gives, made⟩
      refine ⟨⟨given, gives⟩, ?_⟩
      cases given with
      | some strategy =>
        obtain ⟨others, makes, _⟩ := Outcome.bind_ok.mp made
        exact ⟨others, makes⟩
      | none => exact ⟨fields, made⟩
    · rintro ⟨⟨given, gives⟩, others, makes⟩
      cases given with
      | some strategy => exact ⟨_, _, gives, Outcome.bind_ok.mpr ⟨others, makes, rfl⟩⟩
      | none => exact ⟨others, none, gives, makes⟩

theorem below_ok_iff {type : ObjectType} (opened : setup.policy.mayEnter name path = true)
    (found : setup.schema.objects.get? name = some type) :
    (∃ given, setup.below path name = .ok given) ↔
      ∀ entry ∈ type.fields.entries, setup.Gives (path ++ [name]) entry.2.ref := by
  rw [below_eq, if_pos opened, plainObject_eq found, map_eq_pure_bind,
    Outcome.bind_pure_runs_iff, Outcome.bind_pure_runs_iff]
  exact plainFields_ok_iff

-- A scalar is looked at unless it stands in a list that cannot hold anything.
theorem scalar_of_gives (gives : setup.Gives path ref)
    (isScalar : setup.schema.classify ref.base = .ok .scalar)
    (looked : ref.isList = false ∨ setup.policy.maxWidth ref.base ≠ some 0) :
    ∃ strategy, setup.scalars.strategy ref.base = .ok strategy := by
  obtain ⟨given, gives⟩ := gives
  induction ref generalizing given with
  | nonNull inner ih => exact ih isScalar looked given gives
  | list inner ih =>
    have wide : setup.policy.maxWidth inner.base ≠ some 0 := by
      rcases looked with single | wide
      · cases single
      · exact wide
    unfold descent plainRef at gives
    dsimp only at gives
    rw [if_neg wide] at gives
    obtain ⟨element, within, _⟩ := Outcome.bind_ok.mp gives
    exact ih isScalar (.inr wide) element within
  | named name =>
    obtain ⟨strategy, found, _⟩ := Outcome.map_ok.mp ((descent_named isScalar).symm.trans gives)
    exact ⟨strategy, found⟩

def Ready (setup : Setup) (ref : TypeRef) : Prop :=
  ∃ kind, setup.schema.classify ref.base = .ok kind ∧
    (kind = .scalar → ref.isList = false ∨ setup.policy.maxWidth ref.base ≠ some 0 →
      ∃ strategy, setup.scalars.strategy ref.base = .ok strategy)

theorem plainRef_of_ready {enter : String → Except GenerationError (Option Strategy)}
    (objects : ∀ name, setup.schema.classify name = .ok .object → ∃ given, enter name = .ok given)
    (ready : setup.Ready ref) : ∃ given, setup.plainRef enter ref = .ok given := by
  induction ref with
  | nonNull inner ih => exact ih ready
  | list inner ih =>
    obtain ⟨kind, classified, scalar⟩ := ready
    unfold plainRef
    dsimp only
    split
    · exact ⟨_, Outcome.bind_ok.mpr ⟨kind, Outcome.mapError_ok.mpr classified, rfl⟩⟩
    · rename_i wide
      have inside : setup.Ready inner :=
        ⟨kind, classified, fun isScalar _ => scalar isScalar (.inr wide)⟩
      obtain ⟨element, within⟩ := ih inside
      rw [within]
      cases element <;> exact ⟨_, rfl⟩
  | named name =>
    obtain ⟨kind, classified, scalar⟩ := ready
    have classified : setup.schema.classify name = .ok kind := classified
    rw [plainRef_named classified]
    cases kind with
    | enum =>
      obtain ⟨type, found⟩ := Schema.enum_of_classify classified
      exact ⟨_, Outcome.map_ok.mpr ⟨_, plainEnum_eq found, rfl⟩⟩
    | scalar =>
      obtain ⟨strategy, found⟩ := scalar rfl (.inl rfl)
      exact ⟨some strategy, Outcome.map_ok.mpr ⟨strategy, found, rfl⟩⟩
    | object => exact objects name classified
    | query => exact absurd (Schema.classify_ok_iff.mp classified).1 id

-- On every way down the budgets are spent in the end.
theorem below_of_ready {path : List String} {name : String}
    (each : ∀ ref, setup.schema.Refers ref → setup.Ready ref)
    (isObject : setup.schema.classify name = .ok .object) :
    ∃ given, setup.below path name = .ok given := by
  obtain ⟨type, found⟩ := Schema.object_of_classify isObject
  by_cases opened : setup.policy.mayEnter name path = true
  · refine (below_ok_iff opened found).mpr fun entry member => ?_
    have isField : type.fields.get? entry.1 = some entry.2 := Keyed.get?_eq_some_iff.mpr member
    exact plainRef_of_ready (fun inner innerIsObject => below_of_ready each innerIsObject)
      (each _ (.field found isField))
  · rw [below_eq, if_neg opened]
    exact ⟨none, rfl⟩
termination_by setup.left path
decreasing_by exact left_enter_lt (Schema.object_ok.mpr found) opened

theorem gives_of_ready (each : ∀ ref, setup.schema.Refers ref → setup.Ready ref)
    (ready : setup.Ready ref) : setup.Gives path ref :=
  plainRef_of_ready (fun _ => below_of_ready each) ready

theorem validate_ok_iff : setup.schema.validate = .ok () ↔
    ∀ ref, setup.schema.Refers ref → ∃ kind, setup.schema.classify ref.base = .ok kind := by
  unfold Schema.validate
  rw [Outcome.forM_ok_iff]
  simp only [Schema.mem_refs, Schema.classifyRef]
  refine forall₂_congr fun ref _ => ?_
  cases setup.schema.classify ref.base <;> simp [Except.map]

theorem plainType_runs_iff (types : Keyed Strategy) (name : String) :
    (∃ next, setup.plainType types name = .ok next) ↔ setup.Gives [] (.named name) :=
  Outcome.bind_pure_runs_iff.trans plainRoot_ok_iff

theorem plainQuery_runs_iff (queries : Keyed Strategy) (entry : String × QueryDef) :
    (∃ next, setup.plainQuery queries entry = .ok next) ↔ setup.Gives [] entry.2.ref :=
  Outcome.bind_pure_runs_iff.trans plainRoot_ok_iff

theorem plainScalar_runs_iff (types : Keyed Strategy) (name : String) :
    (∃ next, setup.plainScalar types name = .ok next) ↔
      (setup.scalars.has name = true → setup.Gives [] (.named name)) := by
  unfold plainScalar
  by_cases has : setup.scalars.has name = true
  · rw [if_pos has, plainType_runs_iff]
    exact ⟨fun gives _ => gives, fun gives => gives has⟩
  · rw [if_neg has]
    exact ⟨fun _ given => absurd given has, fun _ => ⟨types, rfl⟩⟩

theorem plainCompile_ok_iff : (∃ compiled, setup.plainCompile = .ok compiled) ↔
    setup.schema.validate = .ok () ∧
      (∀ name ∈ setup.schema.names .enum, setup.Gives [] (.named name)) ∧
      (∀ name ∈ setup.schema.names .object, setup.Gives [] (.named name)) ∧
      (∀ entry ∈ setup.schema.queries.entries, setup.Gives [] entry.2.ref) ∧
      (∀ name ∈ setup.schema.names .scalar,
        setup.scalars.has name = true → setup.Gives [] (.named name)) := by
  have types := Outcome.foldlM_runs_iff (setup.plainType_runs_iff)
  have queries := Outcome.foldlM_runs_iff (setup.plainQuery_runs_iff)
  have scalars := Outcome.foldlM_runs_iff (setup.plainScalar_runs_iff)
  unfold plainCompile
  simp only [Outcome.bind_ok]
  constructor
  · rintro ⟨compiled, _, valid, enums, ranEnums, objects, ranObjects, made, ranQueries, all,
      ranScalars, _⟩
    exact ⟨Outcome.mapError_ok.mp valid, (types _ _).mp ⟨enums, ranEnums⟩,
      (types _ _).mp ⟨objects, ranObjects⟩, (queries _ _).mp ⟨made, ranQueries⟩,
      (scalars _ _).mp ⟨all, ranScalars⟩⟩
  · rintro ⟨valid, eachEnum, eachObject, eachQuery, eachScalar⟩
    obtain ⟨enums, ranEnums⟩ := (types _ ∅).mpr eachEnum
    obtain ⟨objects, ranObjects⟩ := (types _ enums).mpr eachObject
    obtain ⟨made, ranQueries⟩ := (queries _ ∅).mpr eachQuery
    obtain ⟨all, ranScalars⟩ := (scalars _ objects).mpr eachScalar
    exact ⟨_, (), Outcome.mapError_ok.mpr valid, enums, ranEnums, objects, ranObjects, made,
      ranQueries, all, ranScalars, rfl⟩

theorem mem_scalar_names : name ∈ setup.schema.names .scalar ↔
    setup.schema.Declares name .scalar := List.mem_append

theorem field_gives {type : ObjectType} {entry : String × FieldDef}
    (gives : setup.Gives [] (.named name)) (found : setup.schema.objects.get? name = some type)
    (member : entry ∈ type.fields.entries) : setup.Gives [name] entry.2.ref := by
  obtain ⟨given, made⟩ := gives
  obtain ⟨kind, classified⟩ := classify_of_descent made
  have isObject := Schema.classify_object classified found
  subst isObject
  have entered := (descent_named classified).symm.trans made
  exact (below_ok_iff Policy.mayEnter_nil found).mp ⟨given, entered⟩ entry member

theorem acceptable_of_compile (compiles : ∃ compiled, setup.plainCompile = .ok compiled) :
    setup.Acceptable := by
  obtain ⟨valid, enums, objects, queries, scalars⟩ := plainCompile_ok_iff.mp compiles
  have classified := validate_ok_iff.mp valid
  have gives : ∀ ref, setup.schema.Refers ref → ∃ path, setup.Gives path ref := by
    rintro _ (⟨isObject, isField⟩ | isQuery)
    · refine ⟨_, field_gives (objects _ (Keyed.mem_names_of_get? isObject)) isObject
        (Keyed.get?_eq_some_iff.mp isField)⟩
    · exact ⟨[], queries _ (Keyed.get?_eq_some_iff.mp isQuery)⟩
  constructor
  case refs => exact fun ref refers => Schema.classified_iff.mp (classified ref refers)
  case types =>
    rintro name (isEnum | isObject)
    · exact Schema.classified_iff.mp (classify_of_descent (enums name isEnum).choose_spec)
    · exact Schema.classified_iff.mp (classify_of_descent (objects name isObject).choose_spec)
  case reached =>
    intro ref refers isScalar looked
    obtain ⟨path, gives⟩ := gives ref refers
    have unique := Schema.classified_iff.mp (classified ref refers)
    have isScalar := Schema.classify_of_unique isScalar unique
    exact (Scalars.strategy_ok_iff.mp (scalar_of_gives gives isScalar looked)).1
  case overrides =>
    intro name own isScalar found
    have has : setup.scalars.has name = true := by simp [Scalars.has, Keyed.contains, found]
    have gives := scalars name (mem_scalar_names.mpr isScalar) has
    have unique := Schema.classified_iff.mp (classify_of_descent gives.choose_spec)
    have isScalar := Schema.classify_of_unique isScalar unique
    exact (Scalars.strategy_ok_iff.mp (scalar_of_gives gives isScalar (.inl rfl))).2 own found

theorem Acceptable.scalar_strategy (acceptable : setup.Acceptable)
    (isScalar : setup.schema.Declares name .scalar) (has : setup.scalars.has name = true) :
    ∃ strategy, setup.scalars.strategy name = .ok strategy :=
  Scalars.strategy_ok_iff.mpr ⟨has, fun own => acceptable.overrides name own isScalar⟩

theorem Acceptable.ready (acceptable : setup.Acceptable) (refers : setup.schema.Refers ref) :
    setup.Ready ref := by
  obtain ⟨kind, classified⟩ := Schema.classified_iff.mpr (acceptable.refs ref refers)
  refine ⟨kind, classified, ?_⟩
  rintro rfl looked
  have isScalar := (Schema.classify_ok_iff.mp classified).1
  exact acceptable.scalar_strategy isScalar (acceptable.reached ref refers isScalar looked)

theorem Acceptable.ready_type (acceptable : setup.Acceptable)
    (declared : name ∈ setup.schema.enums.names ∨ name ∈ setup.schema.objects.names) :
    setup.Ready (.named name) := by
  have unique := acceptable.types name declared
  obtain ⟨kind, classified⟩ := Schema.classified_iff.mpr unique
  refine ⟨kind, classified, ?_⟩
  rintro rfl
  have isScalar := (Schema.classify_ok_iff.mp classified).1
  rcases declared with isEnum | isObject
  · have same : TypeKind.enum = .scalar := unique.unique isEnum isScalar
    cases same
  · have same : TypeKind.object = .scalar := unique.unique isObject isScalar
    cases same

theorem Acceptable.ready_scalar (acceptable : setup.Acceptable)
    (isScalar : setup.schema.Declares name .scalar) (has : setup.scalars.has name = true) :
    setup.Ready (.named name) := by
  have only : ∀ other, setup.schema.Declares name other → other = .scalar := by
    intro other declared
    cases other with
    | enum => exact (acceptable.types name (.inl declared)).unique declared isScalar
    | object => exact (acceptable.types name (.inr declared)).unique declared isScalar
    | scalar => rfl
    | query => cases declared
  exact ⟨.scalar, Schema.classify_ok_iff.mpr ⟨isScalar, only⟩, fun _ _ =>
    acceptable.scalar_strategy isScalar has⟩

theorem compile_of_acceptable (acceptable : setup.Acceptable) :
    ∃ compiled, setup.plainCompile = .ok compiled := by
  have gives : ∀ ref, setup.Ready ref → setup.Gives [] ref := fun ref =>
    gives_of_ready fun _ => acceptable.ready
  refine plainCompile_ok_iff.mpr ⟨?_, ?_, ?_, ?_, ?_⟩
  · refine validate_ok_iff.mpr fun ref refers => ?_
    exact Schema.classified_iff.mpr (acceptable.refs ref refers)
  · exact fun name isEnum => gives _ (acceptable.ready_type (.inl isEnum))
  · exact fun name isObject => gives _ (acceptable.ready_type (.inr isObject))
  · intro entry member
    exact gives _ (acceptable.ready (.query (Keyed.get?_eq_some_iff.mpr member)))
  · intro name member has
    exact gives _ (acceptable.ready_scalar (mem_scalar_names.mp member) has)

theorem acceptable_of_ok {compiled : Compiled} (compiles : setup.compile = .ok compiled) :
    setup.Acceptable := by
  have plainly : setup.compile = setup.plainCompile :=
    (follows_strategies {} setup.sound_start).1
  exact acceptable_of_compile ⟨compiled, plainly.symm.trans compiles⟩

theorem classify_of_refers {compiled : Compiled} (compiles : setup.compile = .ok compiled)
    (refers : setup.schema.Refers ref) : ∃ kind, setup.schema.classify ref.base = .ok kind :=
  Schema.classified_iff.mpr ((acceptable_of_ok compiles).refs ref refers)

-- Depth budgets may differ.
structure Alike (first second : Setup) : Prop where
  enums : ∀ name, first.schema.enums.get? name = second.schema.enums.get? name
  objects : ∀ name, Option.Rel
    (fun one other => ∀ field, one.fields.get? field = other.fields.get? field)
    (first.schema.objects.get? name) (second.schema.objects.get? name)
  scalars : ∀ name, first.schema.scalars.get? name = second.schema.scalars.get? name
  queries : ∀ name, first.schema.queries.get? name = second.schema.queries.get? name
  widths : ∀ name, first.policy.maxWidth name = second.policy.maxWidth name
  overrides : ∀ name, first.scalars.overrides.get? name = second.scalars.overrides.get? name

variable {first second : Setup}

theorem Alike.symm (alike : first.Alike second) : second.Alike first where
  enums name := (alike.enums name).symm
  objects name := by
    have same := alike.objects name
    revert same
    cases first.schema.objects.get? name <;> cases second.schema.objects.get? name <;>
      simp [eq_comm]
  scalars name := (alike.scalars name).symm
  queries name := (alike.queries name).symm
  widths name := (alike.widths name).symm
  overrides name := (alike.overrides name).symm

theorem Alike.object (alike : first.Alike second) {one : ObjectType}
    (found : first.schema.objects.get? name = some one) :
    ∃ other, second.schema.objects.get? name = some other ∧
      ∀ field, one.fields.get? field = other.fields.get? field := by
  have same := alike.objects name
  rw [found] at same
  cases there : second.schema.objects.get? name with
  | none => simp [there] at same
  | some other => exact ⟨other, rfl, by simpa [there] using same⟩

theorem Alike.declares (alike : first.Alike second) {kind : TypeKind}
    (declared : first.schema.Declares name kind) : second.schema.Declares name kind := by
  cases kind with
  | enum =>
    obtain ⟨type, found⟩ := Keyed.get?_of_mem_names declared
    exact Keyed.mem_names_of_get? ((alike.enums name).symm.trans found)
  | object =>
    obtain ⟨type, found⟩ := Keyed.get?_of_mem_names declared
    obtain ⟨other, there, _⟩ := alike.object found
    exact Keyed.mem_names_of_get? there
  | scalar =>
    rcases declared with builtin | own
    · exact .inl builtin
    · obtain ⟨type, found⟩ := Keyed.get?_of_mem_names own
      exact .inr (Keyed.mem_names_of_get? ((alike.scalars name).symm.trans found))
  | query => exact declared

theorem Alike.declares_iff (alike : first.Alike second) (name : String) (kind : TypeKind) :
    first.schema.Declares name kind ↔ second.schema.Declares name kind :=
  ⟨alike.declares, alike.symm.declares⟩

theorem Alike.refers (alike : first.Alike second) (refers : first.schema.Refers ref) :
    second.schema.Refers ref := by
  rcases refers with ⟨isObject, isField⟩ | isQuery
  · obtain ⟨other, there, fields⟩ := alike.object isObject
    exact .field there ((fields _).symm.trans isField)
  · exact .query ((alike.queries _).symm.trans isQuery)

theorem Alike.has (alike : first.Alike second) (name : String) :
    first.scalars.has name = second.scalars.has name := by
  rw [Scalars.has, Scalars.has, Keyed.contains, Keyed.contains, alike.overrides name]

theorem Alike.acceptable (alike : first.Alike second) (acceptable : first.Acceptable) :
    second.Acceptable := by
  have declares := alike.declares_iff
  constructor
  case refs =>
    intro ref refers
    simpa only [declares] using acceptable.refs ref (alike.symm.refers refers)
  case types =>
    intro name declared
    have there : first.schema.Declares name .enum ∨ first.schema.Declares name .object :=
      declared.imp (declares name .enum).mpr (declares name .object).mpr
    simpa only [declares] using acceptable.types name there
  case reached =>
    intro ref refers isScalar looked
    rw [← alike.widths] at looked
    rw [← alike.has]
    exact acceptable.reached ref (alike.symm.refers refers) ((declares _ _).mpr isScalar) looked
  case overrides =>
    intro name own isScalar found
    exact acceptable.overrides name own ((declares _ _).mpr isScalar)
      ((alike.overrides name).trans found)

-- Neither the depth budgets nor the order of the declarations have a say in whether a
-- compilation succeeds.
theorem compile_succeeds_iff (setup : Setup) :
    ((∃ compiled, setup.compile = .ok compiled) ↔ setup.Acceptable) ∧
      ∀ other : Setup, setup.Alike other →
        ((∃ compiled, setup.compile = .ok compiled) ↔
          ∃ compiled, other.compile = .ok compiled) := by
  have succeeds : ∀ given : Setup, (∃ compiled, given.compile = .ok compiled) ↔
      given.Acceptable := by
    intro given
    have plainly : given.compile = given.plainCompile :=
      (follows_strategies {} given.sound_start).1
    rw [plainly]
    exact ⟨acceptable_of_compile, compile_of_acceptable⟩
  refine ⟨succeeds setup, fun other alike => ?_⟩
  rw [succeeds setup, succeeds other]
  exact ⟨alike.acceptable, alike.symm.acceptable⟩

end Setup

end SchemaSampler
