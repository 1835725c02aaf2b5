import SchemaSampler.Proofs.Tables

-- Going down record fields and list elements, the object types entered so far decide alone which
-- fields a record has.

namespace SchemaSampler

namespace Setup

variable {setup : Setup} {path : List String} {ref : TypeRef}

def leavesOut (setup : Setup) (path : List String) (ref : TypeRef) : Bool :=
  !ref.isList && setup.schema.objects.contains ref.base &&
    min ((setup.policy.budget ref.base).toNat + 1) (Word.count 32 - 1) ≤ path.count ref.base

theorem leavesOut_list (inner : TypeRef) : setup.leavesOut path (.list inner) = false := rfl

theorem leavesOut_named {name : String} :
    setup.leavesOut path (.named name) = true ↔
      setup.schema.objects.contains name = true ∧ setup.policy.mayEnter name path = false := by
  rw [← Bool.not_eq_true, Policy.mayEnter_iff, Nat.not_lt]
  simp only [leavesOut, Bool.and_eq_true, decide_eq_true_eq]
  simp [TypeRef.isList, TypeRef.base, Policy.allowed]

theorem descent_none_iff {given : Option Strategy} (gives : setup.descent path ref = .ok given) :
    given = none ↔ setup.leavesOut path ref = true := by
  induction ref generalizing given with
  | nonNull inner ih => exact ih gives
  | list inner ih =>
    rw [leavesOut_list]
    unfold descent plainRef at gives
    dsimp only at gives
    split at gives
    · obtain ⟨_, _, made⟩ := Outcome.bind_ok.mp gives
      cases made
      simp
    · obtain ⟨element, _, made⟩ := Outcome.bind_ok.mp gives
      cases element <;> cases made <;> simp
  | named name =>
    rw [leavesOut_named]
    unfold descent plainRef at gives
    obtain ⟨kind, classified, made⟩ := Outcome.bind_ok.mp gives
    have classified := Outcome.mapError_ok.mp classified
    cases kind with
    | object =>
      obtain ⟨type, found⟩ := Schema.object_of_classify classified
      rw [Keyed.contains, found]
      change setup.below path name = .ok given at made
      rw [below_eq] at made
      cases opened : setup.policy.mayEnter name path with
      | true =>
        rw [opened, if_pos rfl] at made
        obtain ⟨strategy, _, rfl⟩ := Outcome.map_ok.mp made
        simp
      | false =>
        rw [opened] at made
        cases made
        simp
    | enum =>
      rw [Schema.no_object_of_classify classified (by decide)]
      obtain ⟨strategy, _, rfl⟩ := Outcome.map_ok.mp made
      simp
    | scalar =>
      rw [Schema.no_object_of_classify classified (by decide)]
      obtain ⟨strategy, _, rfl⟩ := Outcome.map_ok.mp made
      simp
    | query => cases made

structure RecordBelow (setup : Setup) (path : List String) (name : String) (type : ObjectType)
    (fields : List (String × Strategy)) : Prop where
  names : fields.map Prod.fst =
    (type.fields.entries.filter fun entry =>
      !setup.leavesOut (path ++ [name]) entry.2.ref).map Prod.fst
  strategies : ∀ field strategy, (field, strategy) ∈ fields →
    ∃ declared, type.fields.get? field = some declared ∧
      setup.descent (path ++ [name]) declared.ref = .ok (some strategy)

theorem plainFields_names {entries : List (String × FieldDef)} {fields : List (String × Strategy)}
    (made : plainFields (setup.descent path) entries = .ok fields) :
    fields.map Prod.fst =
      (entries.filter fun entry => !setup.leavesOut path entry.2.ref).map Prod.fst := by
  induction entries generalizing fields with
  | nil =>
    cases made
    rfl
  | cons entry rest ih =>
    unfold plainFields at made
    obtain ⟨given, gives, made⟩ := Outcome.bind_ok.mp made
    have spent := descent_none_iff gives
    cases given with
    | some strategy =>
      obtain ⟨others, makes, made⟩ := Outcome.bind_ok.mp made
      cases made
      have kept : setup.leavesOut path entry.2.ref = false := by simpa using spent
      simp [kept, ih makes]
    | none =>
      have omitted : setup.leavesOut path entry.2.ref = true := by simpa using spent
      simp [omitted, ih made]

theorem plainFields_strategies {entries : List (String × FieldDef)}
    {fields : List (String × Strategy)}
    (made : plainFields (setup.descent path) entries = .ok fields) {field : String}
    {strategy : Strategy} (member : (field, strategy) ∈ fields) :
    ∃ declared, (field, declared) ∈ entries ∧
      setup.descent path declared.ref = .ok (some strategy) := by
  induction entries generalizing fields with
  | nil =>
    cases made
    cases member
  | cons entry rest ih =>
    unfold plainFields at made
    obtain ⟨given, gives, made⟩ := Outcome.bind_ok.mp made
    cases given with
    | some first =>
      obtain ⟨others, makes, made⟩ := Outcome.bind_ok.mp made
      cases made
      rcases List.mem_cons.mp member with same | later
      · cases same
        exact ⟨entry.2, by simp, gives⟩
      · obtain ⟨declared, inside, given⟩ := ih makes later
        exact ⟨declared, List.mem_cons_of_mem _ inside, given⟩
    | none =>
      obtain ⟨declared, inside, given⟩ := ih made member
      exact ⟨declared, List.mem_cons_of_mem _ inside, given⟩

theorem descent_object {name : String} {type : ObjectType} {strategy : Strategy}
    (found : setup.schema.objects.get? name = some type)
    (gives : setup.descent path (.named name) = .ok (some strategy)) :
    setup.policy.mayEnter name path = true ∧
      ∃ fields, strategy = .record fields ∧ setup.RecordBelow path name type fields := by
  unfold descent plainRef at gives
  obtain ⟨kind, classified, made⟩ := Outcome.bind_ok.mp gives
  have isObject := Schema.classify_object (Outcome.mapError_ok.mp classified) found
  subst isObject
  change setup.below path name = .ok (some strategy) at made
  rw [below_eq] at made
  split at made
  · rename_i opened
    refine ⟨opened, ?_⟩
    obtain ⟨record, plain, same⟩ := Outcome.map_ok.mp made
    cases same
    unfold plainObject at plain
    obtain ⟨asFound, sameType, plain⟩ := Outcome.bind_ok.mp plain
    have sameType := Schema.object_ok.mp (Outcome.mapError_ok.mp sameType)
    rw [found] at sameType
    cases sameType
    obtain ⟨fields, makes, plain⟩ := Outcome.bind_ok.mp plain
    cases plain
    refine ⟨fields, rfl, plainFields_names makes, ?_⟩
    intro field strategy member
    obtain ⟨declared, inside, given⟩ := plainFields_strategies makes member
    exact ⟨declared, Keyed.get?_eq_some_iff.mpr inside, given⟩
  · cases made

theorem descent_element {inner : TypeRef} {element : Strategy} {longest : Option UInt32}
    (gives : setup.descent path (.list inner) = .ok (some (.list element longest))) :
    setup.descent path inner = .ok (some element) := by
  unfold descent plainRef at gives
  dsimp only at gives
  split at gives
  · obtain ⟨_, _, made⟩ := Outcome.bind_ok.mp gives
    cases made
  · rename_i wide
    obtain ⟨given, within, made⟩ := Outcome.bind_ok.mp gives
    cases given with
    | none => cases made
    | some made' =>
      dsimp only at made
      rw [Strategy.listOf, if_neg wide] at made
      cases made
      exact within

theorem descent_nil {given : Option Strategy} (gives : setup.descent [] ref = .ok given) :
    ∃ strategy, given = some strategy := by
  cases given with
  | some strategy => exact ⟨strategy, rfl⟩
  | none =>
    have spent := (descent_none_iff gives).mp rfl
    simp only [leavesOut, Bool.and_eq_true, decide_eq_true_eq] at spent
    have room : 0 < setup.policy.allowed ref.base := Policy.allowed_pos
    exact absurd spent.2 (Nat.not_le.mpr room)

theorem descent_of_type {compiled : Compiled} {name : String} {strategy : Strategy}
    (compiles : setup.compile = .ok compiled) (found : compiled.type name = .ok strategy) :
    setup.descent [] (.named name) = .ok (some strategy) := by
  obtain ⟨given, gives, made⟩ := Outcome.bind_ok.mp (type_rooted compiles found)
  obtain ⟨strategy, rfl⟩ := descent_nil gives
  cases made
  exact gives

end Setup

inductive Compiled.Walk (compiled : Compiled) (type : String) :
    List String → TypeRef → Strategy → Prop where
  | start (found : compiled.type type = .ok strategy) : Walk compiled type [] (.named type) strategy
  | nonNull (here : Walk compiled type path (.nonNull wrapped) strategy) :
      Walk compiled type path wrapped strategy
  | element (here : Walk compiled type path (.list wrapped) (.list element longest)) :
      Walk compiled type path wrapped element
  | field (here : Walk compiled type path (.named name) (.record fields))
      (isObject : compiled.schema.objects.get? name = some object)
      (isField : object.fields.get? field = some declared) (member : (field, strategy) ∈ fields) :
      Walk compiled type (path ++ [name]) declared.ref strategy

namespace Setup

variable {setup : Setup} {compiled : Compiled} {type : String}

-- Every place holds what the descent gives there, and no budget is exceeded on the way.
theorem walk_descent (compiles : setup.compile = .ok compiled) {path : List String} {ref : TypeRef}
    {strategy : Strategy} (walk : compiled.Walk type path ref strategy) :
    setup.descent path ref = .ok (some strategy) ∧
      ∀ asked, path.count asked ≤ setup.policy.allowed asked := by
  induction walk with
  | start found =>
    obtain ⟨given, gives, made⟩ := Outcome.bind_ok.mp (type_rooted compiles found)
    obtain ⟨strategy, rfl⟩ := descent_nil gives
    cases made
    exact ⟨gives, fun asked => by simp⟩
  | nonNull here ih => exact ih
  | element here ih => exact ⟨descent_element ih.1, ih.2⟩
  | @field path name fields object field declared strategy here isObject isField member ih =>
    obtain ⟨_, _, _, _, _, _, sameSchema, _⟩ := compile_ok compiles
    rw [sameSchema] at isObject
    obtain ⟨opened, made, same, record⟩ := descent_object isObject ih.1
    cases same
    obtain ⟨found, isFound, gives⟩ := record.strategies field strategy member
    rw [isField] at isFound
    cases isFound
    exact ⟨gives, Policy.count_enter_le ih.2 opened⟩

theorem allowed_le_budget (name : String) :
    setup.policy.allowed name ≤ (setup.policy.budget name).toNat + 1 :=
  Nat.min_le_left _ _

theorem walk_record (compiles : setup.compile = .ok compiled) {path : List String} {name : String}
    {strategy : Strategy} {object : ObjectType} (walk : compiled.Walk type path (.named name) strategy)
    (found : setup.schema.objects.get? name = some object) :
    (∃ fields, strategy = .record fields ∧ setup.RecordBelow path name object fields) ∧
      ∀ asked, (path ++ [name]).count asked ≤ (setup.policy.budget asked).toNat + 1 := by
  obtain ⟨gives, within⟩ := walk_descent compiles walk
  obtain ⟨opened, record⟩ := descent_object found gives
  refine ⟨record, fun asked => ?_⟩
  exact Nat.le_trans (Policy.count_enter_le within opened asked) (allowed_le_budget asked)

theorem root_record (compiles : setup.compile = .ok compiled) {object : ObjectType}
    (found : setup.schema.objects.get? type = some object) :
    ∃ fields, compiled.type type = .ok (.record fields) ∧
      ∀ field declared, object.fields.get? field = some declared → field ∉ fields.map Prod.fst →
        declared.ref.isList = false ∧ declared.ref.base = type ∧ setup.policy.budget type = 0 := by
  obtain ⟨strategy, there⟩ := compile_object compiles (Keyed.mem_names_of_get? found)
  have given : compiled.type type = .ok strategy := by
    rw [Compiled.type, there]
  obtain ⟨⟨fields, rfl, record⟩, _⟩ := walk_record compiles (.start given) found
  refine ⟨fields, given, fun field declared isField missing => ?_⟩
  have out : setup.leavesOut [type] declared.ref = true := by
    refine Classical.byContradiction fun kept => missing ?_
    rw [record.names]
    refine List.mem_map.mpr ⟨(field, declared), List.mem_filter.mpr ⟨?_, ?_⟩, rfl⟩
    · exact Keyed.get?_eq_some_iff.mp isField
    · simpa using kept
  simp only [leavesOut, Bool.and_eq_true, Bool.not_eq_true', decide_eq_true_eq] at out
  obtain ⟨⟨singular, _⟩, spent⟩ := out
  have wide : 2 ≤ Word.count 32 - 1 := by decide
  by_cases same : type = declared.ref.base
  · rw [← same, List.count_singleton_self] at spent
    refine ⟨singular, same.symm, UInt32.toNat_inj.mp ?_⟩
    rw [UInt32.toNat_zero]
    omega
  · rw [List.count_singleton, beq_false_of_ne same, if_neg Bool.false_ne_true] at spent
    omega

def AlwaysSome (step : Compile (Option α)) : Prop :=
  ∀ state, (step.run.run state).1 ≠ .ok none

theorem alwaysSome_bind {first : Compile α} {next : α → Compile (Option β)}
    (each : ∀ value state, (first.run.run state).1 = .ok value → AlwaysSome (next value)) :
    AlwaysSome (first >>= next) := by
  intro state
  rw [Outcome.run_bind]
  cases gives : (first.run.run state).1 with
  | error cause =>
    intro impossible
    cases impossible
  | ok value => exact each value state gives _

theorem alwaysSome_pure (value : α) : AlwaysSome (pure (some value)) := by
  intro state impossible
  cases impossible

theorem alwaysSome_map (step : Compile α) : AlwaysSome (some <$> step) := by
  rw [map_eq_pure_bind]
  exact alwaysSome_bind fun value _ _ => alwaysSome_pure value

-- At the root there is room for every object type, so that none is ever refused.
theorem alwaysSome_enter {name : String} (isObject : setup.schema.classify name = .ok .object) :
    AlwaysSome (setup.enter setup.room [] name) := by
  obtain ⟨type, found⟩ := Schema.object_of_classify isObject
  have within : setup.policy.remaining name [] ≤ setup.room := by
    rw [← left_nil]
    exact Policy.remaining_le_left (Keyed.mem_names_of_get? found)
  cases space : setup.room with
  | zero =>
    have spent := shut_of_left (setup.left_nil.trans space) isObject
    exact absurd Policy.mayEnter_nil spent
  | succ room =>
    unfold enter
    rw [if_pos Policy.mayEnter_nil]
    exact alwaysSome_map _

theorem alwaysSome_ref (ref : TypeRef) :
    AlwaysSome (setup.ref (setup.enter setup.room []) ref) := by
  induction ref with
  | nonNull inner ih => exact ih
  | list inner ih =>
    unfold Setup.ref
    dsimp only
    split
    · exact alwaysSome_bind fun _ _ _ => alwaysSome_pure _
    · refine alwaysSome_bind fun element _ _ => ?_
      cases element <;> exact alwaysSome_pure _
  | named name =>
    unfold Setup.ref
    refine alwaysSome_bind fun kind state classified => ?_
    cases kind with
    | enum => exact alwaysSome_map _
    | scalar => exact alwaysSome_map _
    | object =>
      rw [Compile.ofSchema, run_attempt] at classified
      exact alwaysSome_enter (Outcome.mapError_ok.mp classified)
    | query =>
      intro after impossible
      cases impossible

-- Records lack exactly the singular references whose budget is spent. The record of a type
-- itself is whole but for singular references to that type under budget 0.
theorem walk_records_exact (compiles : setup.compile = .ok compiled) {object : ObjectType}
    (declared : setup.schema.objects.get? type = some object) :
    (∀ path name strategy entered, compiled.Walk type path (.named name) strategy →
      setup.schema.objects.get? name = some entered →
        ∃ fields, strategy = .record fields ∧ setup.RecordBelow path name entered fields) ∧
    (∀ path name strategy, compiled.Walk type path (.named name) strategy →
      setup.schema.objects.contains name = true →
        ∀ asked, (path ++ [name]).count asked ≤ (setup.policy.budget asked).toNat + 1) ∧
    (∃ fields, compiled.type type = .ok (.record fields) ∧
      ∀ field kept, object.fields.get? field = some kept → field ∉ fields.map Prod.fst →
        kept.ref.isList = false ∧ kept.ref.base = type ∧ setup.policy.budget type = 0) ∧
    ∀ ref, AlwaysSome (setup.ref (setup.enter setup.room []) ref) := by
  refine ⟨?_, ?_, root_record compiles declared, alwaysSome_ref⟩
  · intro path name strategy entered walk found
    exact (walk_record compiles walk found).1
  · intro path name strategy walk contained
    obtain ⟨entered, found⟩ := Option.isSome_iff_exists.mp contained
    exact (walk_record compiles walk found).2

def cycle : Setup where
  schema := (({} : Schema).withObject "node"
      [("next", .named "node"), ("many", .list (.nonNull (.named "node"))),
        ("peer", .nonNull (.named "other"))]).withObject "other" [("back", .named "node")]
  policy := ({} : Policy).withDepth "node" 0

theorem walk_records_cycle : ∃ compiled fields, cycle.compile = .ok compiled ∧
    compiled.type "node" = .ok (.record fields) ∧ fields.map Prod.fst = ["many", "peer"] := by
  have succeeds : cycle.compile.isOk = true := by decide
  cases compiles : cycle.compile with
  | error cause =>
    rw [compiles] at succeeds
    cases succeeds
  | ok compiled =>
    have declared : cycle.schema.objects.get? "node" = some _ := rfl
    obtain ⟨records, _, ⟨fields, given, _⟩, _⟩ := walk_records_exact compiles declared
    obtain ⟨_, same, record⟩ := records [] "node" _ _ (.start given) declared
    cases same
    exact ⟨compiled, fields, rfl, given, record.names.trans (by decide)⟩

end Setup

end SchemaSampler
