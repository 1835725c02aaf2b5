import SchemaSampler.Proofs.MemoSoundness

namespace SchemaSampler

namespace Outcome

variable {ε α β : Type} {step : β → α → Except ε β}

theorem foldlM_keeps (holds : β → Prop) {members : List α}
    (each : ∀ made, ∀ member ∈ members, ∀ next, step made member = .ok next →
      holds made → holds next)
    {start final : β} (ran : members.foldlM step start = .ok final) (begins : holds start) :
    holds final := by
  induction members generalizing start with
  | nil =>
    cases ran
    exact begins
  | cons first rest ih =>
    rw [List.foldlM_cons] at ran
    obtain ⟨next, one, others⟩ := bind_ok.mp ran
    refine ih (fun made member later => each made member (List.mem_cons_of_mem _ later)) others ?_
    exact each start first (by simp) next one begins

theorem foldlM_reaches (holds : β → Prop) {members : List α} {member : α} (inside : member ∈ members)
    (brings : ∀ made next, step made member = .ok next → holds next)
    (each : ∀ made, ∀ other ∈ members, ∀ next, step made other = .ok next →
      holds made → holds next)
    {start final : β} (ran : members.foldlM step start = .ok final) : holds final := by
  induction members generalizing start with
  | nil => cases inside
  | cons first rest ih =>
    rw [List.foldlM_cons] at ran
    obtain ⟨next, one, others⟩ := bind_ok.mp ran
    have later : ∀ made, ∀ other ∈ rest, ∀ next, step made other = .ok next →
        holds made → holds next :=
      fun made other place => each made other (List.mem_cons_of_mem _ place)
    rcases List.mem_cons.mp inside with rfl | place
    · exact foldlM_keeps holds later others (brings start next one)
    · exact ih place later others

end Outcome

namespace Setup

variable {setup : Setup}

theorem plainType_ok {types next : Keyed Strategy} {name : String} :
    setup.plainType types name = .ok next ↔
      ∃ strategy, setup.plainRoot (.named name) = .ok strategy ∧
        types.insert name strategy = next := by
  unfold plainType
  rw [Outcome.bind_ok]
  simp only [Outcome.pure_ok]

def Rooted (setup : Setup) (types : Keyed Strategy) : Prop :=
  ∀ name strategy, types.get? name = some strategy → setup.plainRoot (.named name) = .ok strategy

theorem rooted_insert {types : Keyed Strategy} {name : String} {strategy : Strategy}
    (rooted : setup.Rooted types) (made : setup.plainRoot (.named name) = .ok strategy) :
    setup.Rooted (types.insert name strategy) := by
  intro asked given found
  rw [Keyed.get?_insert] at found
  split at found
  · rename_i same
    cases found
    exact same ▸ made
  · exact rooted asked given found

theorem rooted_plainType {types next : Keyed Strategy} {name : String}
    (made : setup.plainType types name = .ok next) (rooted : setup.Rooted types) :
    setup.Rooted next := by
  obtain ⟨strategy, root, rfl⟩ := plainType_ok.mp made
  exact rooted_insert rooted root

theorem rooted_plainScalar {types next : Keyed Strategy} {name : String}
    (made : setup.plainScalar types name = .ok next) (rooted : setup.Rooted types) :
    setup.Rooted next := by
  unfold plainScalar at made
  split at made
  · exact rooted_plainType made rooted
  · cases made
    exact rooted

theorem contains_plainType {types next : Keyed Strategy} {name asked : String}
    (made : setup.plainType types name = .ok next)
    (there : asked = name ∨ types.contains asked = true) : next.contains asked = true := by
  obtain ⟨strategy, root, rfl⟩ := plainType_ok.mp made
  rw [Keyed.contains, Keyed.get?_insert]
  split
  · rfl
  · rename_i apart
    exact there.resolve_left apart

theorem contains_plainScalar {types next : Keyed Strategy} {name asked : String}
    (made : setup.plainScalar types name = .ok next) (there : types.contains asked = true) :
    next.contains asked = true := by
  unfold plainScalar at made
  split at made
  · exact contains_plainType made (.inr there)
  · cases made
    exact there

theorem compile_ok {compiled : Compiled} (compiles : setup.compile = .ok compiled) :
    ∃ enums objects, (setup.schema.names .enum).foldlM setup.plainType ∅ = .ok enums ∧
      (setup.schema.names .object).foldlM setup.plainType enums = .ok objects ∧
      setup.schema.queries.entries.foldlM setup.plainQuery ∅ = .ok compiled.queries ∧
      (setup.schema.names .scalar).foldlM setup.plainScalar objects = .ok compiled.types ∧
      compiled.schema = setup.schema ∧ compiled.policy = setup.policy := by
  have descends : setup.compile = setup.plainCompile :=
    (follows_strategies {} setup.sound_start).1
  rw [descends] at compiles
  unfold plainCompile at compiles
  obtain ⟨_, _, compiles⟩ := Outcome.bind_ok.mp compiles
  obtain ⟨enums, ranEnums, compiles⟩ := Outcome.bind_ok.mp compiles
  obtain ⟨objects, ranObjects, compiles⟩ := Outcome.bind_ok.mp compiles
  obtain ⟨queries, ranQueries, compiles⟩ := Outcome.bind_ok.mp compiles
  obtain ⟨types, ranScalars, compiles⟩ := Outcome.bind_ok.mp compiles
  cases compiles
  exact ⟨enums, objects, ranEnums, ranObjects, ranQueries, ranScalars, rfl, rfl⟩

theorem compile_schema {compiled : Compiled} (compiles : setup.compile = .ok compiled) :
    compiled.schema = setup.schema := by
  obtain ⟨_, _, _, _, _, _, sameSchema, _⟩ := compile_ok compiles
  exact sameSchema

theorem compile_policy {compiled : Compiled} (compiles : setup.compile = .ok compiled) :
    compiled.policy = setup.policy := by
  obtain ⟨_, _, _, _, _, _, _, samePolicy⟩ := compile_ok compiles
  exact samePolicy

theorem compile_rooted {compiled : Compiled} (compiles : setup.compile = .ok compiled) :
    setup.Rooted compiled.types := by
  obtain ⟨enums, objects, ranEnums, ranObjects, _, ranScalars, _⟩ := compile_ok compiles
  have empty : setup.Rooted ∅ := by
    intro name strategy found
    cases found
  refine Outcome.foldlM_keeps setup.Rooted (fun _ _ _ _ => rooted_plainScalar) ranScalars ?_
  refine Outcome.foldlM_keeps setup.Rooted (fun _ _ _ _ => rooted_plainType) ranObjects ?_
  exact Outcome.foldlM_keeps setup.Rooted (fun _ _ _ _ => rooted_plainType) ranEnums empty

theorem compile_contains {compiled : Compiled} {name : String}
    (compiles : setup.compile = .ok compiled)
    (listed : name ∈ setup.schema.names .enum ∨ name ∈ setup.schema.names .object ∨
      (name ∈ setup.schema.names .scalar ∧ setup.scalars.has name = true)) :
    ∃ strategy, compiled.types.get? name = some strategy := by
  let holds (types : Keyed Strategy) : Prop := types.contains name = true
  obtain ⟨enums, objects, ranEnums, ranObjects, _, ranScalars, _⟩ := compile_ok compiles
  have keptTypes : ∀ made (member : String) next, setup.plainType made member = .ok next →
      holds made → holds next := fun _ _ _ made there => contains_plainType made (.inr there)
  have keptScalars : ∀ made (member : String) next, setup.plainScalar made member = .ok next →
      holds made → holds next := fun _ _ _ => contains_plainScalar
  have there : holds compiled.types := by
    rcases listed with isEnum | isObject | ⟨isScalar, has⟩
    · refine Outcome.foldlM_keeps holds (fun _ _ _ _ => keptScalars _ _ _) ranScalars ?_
      refine Outcome.foldlM_keeps holds (fun _ _ _ _ => keptTypes _ _ _) ranObjects ?_
      exact Outcome.foldlM_reaches holds isEnum
        (fun _ _ made => contains_plainType made (.inl rfl)) (fun _ _ _ _ => keptTypes _ _ _) ranEnums
    · refine Outcome.foldlM_keeps holds (fun _ _ _ _ => keptScalars _ _ _) ranScalars ?_
      exact Outcome.foldlM_reaches holds isObject
        (fun _ _ made => contains_plainType made (.inl rfl)) (fun _ _ _ _ => keptTypes _ _ _) ranObjects
    · refine Outcome.foldlM_reaches holds isScalar (fun _ _ made => ?_)
        (fun _ _ _ _ => keptScalars _ _ _) ranScalars
      unfold plainScalar at made
      rw [if_pos has] at made
      exact contains_plainType made (.inl rfl)
  exact Option.isSome_iff_exists.mp there

theorem compile_object {compiled : Compiled} {name : String}
    (compiles : setup.compile = .ok compiled) (declared : name ∈ setup.schema.objects.names) :
    ∃ strategy, compiled.types.get? name = some strategy :=
  compile_contains compiles (.inr (.inl declared))

theorem type_rooted {compiled : Compiled} {name : String} {strategy : Strategy}
    (compiles : setup.compile = .ok compiled) (found : compiled.type name = .ok strategy) :
    setup.plainRoot (.named name) = .ok strategy := by
  unfold Compiled.type at found
  split at found
  · rename_i known here
    cases found
    exact compile_rooted compiles name strategy here
  · obtain ⟨kind, _, impossible⟩ := Outcome.bind_ok.mp found
    cases kind <;> cases impossible

-- Only scalars without a strategy are missing from the tables.
theorem type_eq_plainRoot {compiled : Compiled} (compiles : setup.compile = .ok compiled)
    (name : String) : compiled.type name = setup.plainRoot (.named name) := by
  obtain ⟨_, _, _, _, _, _, sameSchema, _⟩ := compile_ok compiles
  unfold Compiled.type
  cases there : compiled.types.get? name with
  | some strategy => exact (compile_rooted compiles name strategy there).symm
  | none =>
    have absent : ¬ ∃ strategy, compiled.types.get? name = some strategy := by simp [there]
    have unlisted := mt (compile_contains compiles) absent
    rw [not_or, not_or] at unlisted
    obtain ⟨noEnum, noObject, noScalar⟩ := unlisted
    dsimp only
    rw [sameSchema]
    unfold plainRoot descent plainRef
    cases classified : setup.schema.classify name with
    | error cause => rfl
    | ok kind =>
      have declared := (Schema.classify_ok_iff.mp classified).1
      cases kind with
      | enum => exact absurd declared noEnum
      | object => exact absurd declared noObject
      | scalar =>
        have missing := fun has => noScalar ⟨List.mem_append.mpr declared, has⟩
        change _ = (some <$> setup.scalars.strategy name) >>= _
        rw [Scalars.strategy_missing missing]
        rfl
      | query => cases declared

theorem plainQuery_ok {queries next : Keyed Strategy} {entry : String × QueryDef} :
    setup.plainQuery queries entry = .ok next ↔
      ∃ strategy, setup.plainRoot entry.2.ref = .ok strategy ∧
        queries.insert entry.1 strategy = next := by
  unfold plainQuery
  rw [Outcome.bind_ok]
  simp only [Outcome.pure_ok]

theorem compile_query {compiled : Compiled} {query : String} {declared : QueryDef}
    (compiles : setup.compile = .ok compiled)
    (isQuery : setup.schema.queries.get? query = some declared) :
    compiled.query query = setup.plainRoot declared.ref := by
  let holds (queries : Keyed Strategy) : Prop :=
    ∃ strategy, queries.get? query = some strategy ∧ setup.plainRoot declared.ref = .ok strategy
  obtain ⟨_, _, _, _, ranQueries, _⟩ := compile_ok compiles
  have there : holds compiled.queries := by
    refine Outcome.foldlM_reaches holds (Keyed.get?_eq_some_iff.mp isQuery) ?_ ?_ ranQueries
    · intro made next ran
      obtain ⟨strategy, root, rfl⟩ := plainQuery_ok.mp ran
      exact ⟨strategy, by rw [Keyed.get?_insert, if_pos rfl], root⟩
    · rintro made other member next ran ⟨strategy, found, root⟩
      obtain ⟨given, otherRoot, rfl⟩ := plainQuery_ok.mp ran
      by_cases same : query = other.1
      · have again : some other.2 = some declared :=
          (Keyed.get?_eq_some_iff.mpr member).symm.trans (same ▸ isQuery)
        exact ⟨given, by rw [Keyed.get?_insert, if_pos same], Option.some.inj again ▸ otherRoot⟩
      · exact ⟨strategy, by rw [Keyed.get?_insert, if_neg same, found], root⟩
  obtain ⟨strategy, found, root⟩ := there
  rw [Compiled.query, found, root]

end Setup

end SchemaSampler
