import SchemaSampler.Proofs.Acceptance
import SchemaSampler.Proofs.Locality

namespace SchemaSampler

-- Each step puts in one name or none.
theorem Keyed.names_foldlM {ε α β : Type} {step : Keyed α → β → Except ε (Keyed α)}
    {added : β → Option String}
    (each : ∀ made member next, step made member = .ok next →
      next.names = (made.names ++ (added member).toList).eraseDups)
    {members : List β} {start final : Keyed α} (ran : members.foldlM step start = .ok final) :
    final.names = (start.names ++ members.filterMap added).eraseDups := by
  induction members generalizing start with
  | nil =>
    have distinct : start.names.Nodup := start.distinct
    cases ran
    rw [List.filterMap_nil, List.append_nil, Entries.eraseDups_of_distinct distinct]
  | cons member rest ih =>
    rw [List.foldlM_cons] at ran
    obtain ⟨next, one, others⟩ := Outcome.bind_ok.mp ran
    have further : (member :: rest).filterMap added =
        (added member).toList ++ rest.filterMap added := by
      rw [List.filterMap_cons]
      cases added member <;> rfl
    rw [ih others, each start member next one, Entries.eraseDups_eraseDups_append,
      List.append_assoc, further]

namespace Setup

variable {setup : Setup} {compiled : Compiled} {name : String}

theorem names_plainType (setup : Setup) (types : Keyed Strategy) (name : String)
    (next : Keyed Strategy) (made : setup.plainType types name = .ok next) :
    next.names = (types.names ++ (some name).toList).eraseDups := by
  obtain ⟨strategy, _, rfl⟩ := plainType_ok.mp made
  exact types.names_insert_eraseDups name strategy

theorem names_plainQuery (setup : Setup) (queries : Keyed Strategy) (entry : String × QueryDef)
    (next : Keyed Strategy) (made : setup.plainQuery queries entry = .ok next) :
    next.names = (queries.names ++ (some entry.1).toList).eraseDups := by
  obtain ⟨strategy, _, rfl⟩ := plainQuery_ok.mp made
  exact queries.names_insert_eraseDups entry.1 strategy

theorem names_plainScalar (setup : Setup) (types : Keyed Strategy) (name : String)
    (next : Keyed Strategy) (made : setup.plainScalar types name = .ok next) :
    next.names = (types.names ++ (Option.guard setup.scalars.has name).toList).eraseDups := by
  unfold plainScalar at made
  by_cases has : setup.scalars.has name = true
  · rw [if_pos has] at made
    rw [Option.guard, if_pos has]
    exact setup.names_plainType types name next made
  · rw [if_neg has] at made
    cases made
    have distinct : types.names.Nodup := types.distinct
    rw [Option.guard, if_neg has, Option.toList_none, List.append_nil,
      Entries.eraseDups_of_distinct distinct]

theorem queryNames_eq (compiles : setup.compile = .ok compiled) :
    compiled.queryNames = setup.schema.queries.names := by
  have distinct : setup.schema.queries.names.Nodup := setup.schema.queries.distinct
  have all : setup.schema.queries.entries.filterMap (fun entry => some entry.1) =
      setup.schema.queries.names := congrFun List.filterMap_eq_map _
  obtain ⟨_, _, _, _, ranQueries, _⟩ := compile_ok compiles
  rw [Compiled.queryNames, Keyed.names_foldlM setup.names_plainQuery ranQueries, all]
  exact Entries.eraseDups_of_distinct distinct

theorem typeNames_run (compiles : setup.compile = .ok compiled) :
    compiled.typeNames = (setup.schema.enums.names ++ setup.schema.objects.names ++
      (builtinScalars ++ setup.schema.scalars.names.filter setup.scalars.has)).eraseDups := by
  obtain ⟨enums, objects, ranEnums, ranObjects, _, ranScalars, _⟩ := compile_ok compiles
  have enumNames : enums.names = setup.schema.enums.names.eraseDups := by
    rw [Keyed.names_foldlM setup.names_plainType ranEnums, List.filterMap_some]
    rfl
  have objectNames : objects.names =
      (setup.schema.enums.names ++ setup.schema.objects.names).eraseDups := by
    rw [Keyed.names_foldlM setup.names_plainType ranObjects, List.filterMap_some, enumNames,
      Entries.eraseDups_eraseDups_append]
    rfl
  have builtin : builtinScalars.filter setup.scalars.has = builtinScalars :=
    List.filter_eq_self.mpr setup.scalars.has_of_builtin
  rw [Compiled.typeNames, Keyed.names_foldlM setup.names_plainScalar ranScalars,
    List.filterMap_eq_filter, Schema.names, List.filter_append, builtin, objectNames,
    Entries.eraseDups_eraseDups_append]

theorem Acceptable.one_kind (acceptable : setup.Acceptable) (first second : TypeKind)
    (one : setup.schema.Declares name first) (other : setup.schema.Declares name second) :
    first = second := by
  have unique : ∀ kind, kind = .enum ∨ kind = .object → setup.schema.Declares name kind →
      ∃! kind, setup.schema.Declares name kind := by
    rintro kind (rfl | rfl) declared
    · exact acceptable.types name (.inl declared)
    · exact acceptable.types name (.inr declared)
  cases first with
  | enum => exact (unique .enum (.inl rfl) one).unique one other
  | object => exact (unique .object (.inr rfl) one).unique one other
  | query => cases one
  | scalar =>
    cases second with
    | enum => exact (unique .enum (.inl rfl) other).unique one other
    | object => exact (unique .object (.inr rfl) other).unique one other
    | scalar => rfl
    | query => cases other

theorem typeNames_eq (compiles : setup.compile = .ok compiled) :
    compiled.typeNames = setup.schema.enums.names ++ setup.schema.objects.names ++
      builtinScalars ++ setup.schema.scalars.names.filter fun name =>
        name ∉ builtinScalars ∧ name ∈ setup.scalars.overrides.names := by
  have acceptable := acceptable_of_ok compiles
  have enums : setup.schema.enums.names.Nodup := setup.schema.enums.distinct
  have objects : setup.schema.objects.names.Nodup := setup.schema.objects.distinct
  have scalars : setup.schema.scalars.names.Nodup := setup.schema.scalars.distinct
  have before : (setup.schema.enums.names ++ setup.schema.objects.names ++
      builtinScalars).Nodup := by
    refine List.nodup_append.mpr ⟨List.nodup_append.mpr ⟨enums, objects, ?_⟩, by decide, ?_⟩
    · rintro name isEnum _ isObject rfl
      exact nomatch acceptable.one_kind .enum .object isEnum isObject
    · rintro name isType _ isBuiltin rfl
      rcases List.mem_append.mp isType with isEnum | isObject
      · exact nomatch acceptable.one_kind .enum .scalar isEnum (.inl isBuiltin)
      · exact nomatch acceptable.one_kind .object .scalar isObject (.inl isBuiltin)
  rw [typeNames_run compiles, ← List.append_assoc,
    Entries.eraseDups_append_of_distinct before (scalars.sublist List.filter_sublist),
    List.filter_filter]
  congr 1
  refine List.filter_congr fun name isScalar => ?_
  have noEnum : name ∉ setup.schema.enums.names := fun isEnum =>
    nomatch acceptable.one_kind .enum .scalar isEnum (.inr isScalar)
  have noObject : name ∉ setup.schema.objects.names := fun isObject =>
    nomatch acceptable.one_kind .object .scalar isObject (.inr isScalar)
  rw [Bool.eq_iff_iff, Bool.and_eq_true, Scalars.has_iff]
  simp only [List.mem_append, noEnum, noObject, false_or, decide_eq_true_eq]
  exact and_congr_right fun notBuiltin => or_iff_right notBuiltin

theorem mem_typeNames (compiles : setup.compile = .ok compiled) : name ∈ compiled.typeNames ↔
    name ∈ setup.schema.enums.names ∨ name ∈ setup.schema.objects.names ∨
      (name ∈ builtinScalars ∨ name ∈ setup.schema.scalars.names) ∧
        (name ∈ setup.scalars.overrides.names ∨ name ∈ builtinScalars) := by
  rw [typeNames_eq compiles]
  simp only [List.mem_append, List.mem_filter, decide_eq_true_eq, or_assoc]
  refine or_congr_right (or_congr_right ?_)
  by_cases builtin : name ∈ builtinScalars <;> simp [builtin]

end Setup

namespace Compiled

variable {compiled : Compiled} {name : String}

theorem type_ok_iff : (∃ strategy, compiled.type name = .ok strategy) ↔
    name ∈ compiled.typeNames := by
  rw [typeNames, Keyed.mem_names_iff, Compiled.type]
  cases compiled.types.get? name with
  | some strategy => simp
  | none =>
    refine iff_of_false ?_ nofun
    rintro ⟨strategy, given⟩
    obtain ⟨kind, _, given⟩ := Outcome.bind_ok.mp given
    cases kind <;> cases given

theorem query_ok_iff : (∃ strategy, compiled.query name = .ok strategy) ↔
    name ∈ compiled.queryNames := by
  rw [queryNames, Keyed.mem_names_iff, Compiled.query]
  cases compiled.queries.get? name <;> simp

theorem unlisted_of_error {cause : GenerationError} (failed : compiled.type name = .error cause) :
    name ∉ compiled.typeNames := by
  rw [← type_ok_iff, failed]
  nofun

end Compiled

namespace Setup

variable {setup : Setup} {compiled : Compiled} {name : String}

theorem type_refused (compiles : setup.compile = .ok compiled)
    (absent : name ∉ compiled.typeNames) : compiled.type name =
      if name ∈ setup.schema.scalars.names then .error (.missingStrategy name)
      else .error (.schema (.unknownRef name)) := by
  have acceptable := acceptable_of_ok compiles
  have empty : compiled.types.get? name = none :=
    Option.eq_none_iff_forall_ne_some.mpr fun _ found => absent (Keyed.mem_names_of_get? found)
  rw [mem_typeNames compiles, not_or, not_or] at absent
  obtain ⟨noEnum, noObject, bare⟩ := absent
  rw [Compiled.type, empty, compile_schema compiles]
  dsimp only
  by_cases isScalar : name ∈ setup.schema.scalars.names
  · have classified : setup.schema.classify name = .ok .scalar :=
      Schema.classify_ok_iff.mpr ⟨.inr isScalar, fun other declared =>
        acceptable.one_kind other .scalar declared (.inr isScalar)⟩
    rw [if_pos isScalar, classified]
    rfl
  · have noBuiltin : name ∉ builtinScalars := fun builtin => bare ⟨.inl builtin, .inr builtin⟩
    have unknown : setup.schema.classify name = .error (.unknownRef name) := by
      rw [Schema.classify_eq_unknown, List.eq_nil_iff_forall_not_mem]
      intro kind inside
      have declared := Schema.mem_kinds.mp inside
      cases kind with
      | enum => exact noEnum declared
      | object => exact noObject declared
      | scalar => exact declared.elim noBuiltin isScalar
      | query => exact declared
    rw [if_neg isScalar, unknown]
    rfl

theorem type_missing_iff (compiles : setup.compile = .ok compiled) :
    compiled.type name = .error (.missingStrategy name) ↔
      name ∈ setup.schema.scalars.names ∧
        ¬ (name ∈ setup.scalars.overrides.names ∨ name ∈ builtinScalars) := by
  have acceptable := acceptable_of_ok compiles
  constructor
  · intro missing
    have unlisted := Compiled.unlisted_of_error missing
    rw [type_refused compiles unlisted] at missing
    split at missing
    · rename_i isScalar
      rw [mem_typeNames compiles] at unlisted
      exact ⟨isScalar, fun has => unlisted (.inr (.inr ⟨.inr isScalar, has⟩))⟩
    · cases missing
  · rintro ⟨isScalar, bare⟩
    have unlisted : name ∉ compiled.typeNames := by
      rw [mem_typeNames compiles]
      rintro (isEnum | isObject | ⟨_, has⟩)
      · exact nomatch acceptable.one_kind .enum .scalar isEnum (.inr isScalar)
      · exact nomatch acceptable.one_kind .object .scalar isObject (.inr isScalar)
      · exact bare has
    rw [type_refused compiles unlisted, if_pos isScalar]

theorem type_unknown_iff (compiles : setup.compile = .ok compiled) :
    compiled.type name = .error (.schema (.unknownRef name)) ↔
      ¬ (name ∈ setup.schema.enums.names ∨ name ∈ setup.schema.objects.names ∨
        name ∈ builtinScalars ∨ name ∈ setup.schema.scalars.names) := by
  constructor
  · intro unknown
    have unlisted := Compiled.unlisted_of_error unknown
    rw [type_refused compiles unlisted] at unknown
    split at unknown
    · cases unknown
    · rename_i noScalar
      rw [mem_typeNames compiles] at unlisted
      rintro (isEnum | isObject | builtin | isScalar)
      · exact unlisted (.inl isEnum)
      · exact unlisted (.inr (.inl isObject))
      · exact unlisted (.inr (.inr ⟨.inl builtin, .inr builtin⟩))
      · exact noScalar isScalar
  · intro undeclared
    rw [not_or, not_or, not_or] at undeclared
    obtain ⟨noEnum, noObject, noBuiltin, noScalar⟩ := undeclared
    have unlisted : name ∉ compiled.typeNames := by
      rw [mem_typeNames compiles]
      rintro (isEnum | isObject | ⟨declared, _⟩)
      · exact noEnum isEnum
      · exact noObject isObject
      · exact declared.elim noBuiltin noScalar
    rw [type_refused compiles unlisted, if_neg noScalar]

structure Answers (setup : Setup) (compiled : Compiled) : Prop where
  given : ∀ name, (∃ strategy, compiled.type name = .ok strategy) ↔
    name ∈ setup.schema.enums.names ∨ name ∈ setup.schema.objects.names ∨
      (name ∈ builtinScalars ∨ name ∈ setup.schema.scalars.names) ∧
        (name ∈ setup.scalars.overrides.names ∨ name ∈ builtinScalars)
  missing : ∀ name, compiled.type name = .error (.missingStrategy name) ↔
    name ∈ setup.schema.scalars.names ∧
      ¬ (name ∈ setup.scalars.overrides.names ∨ name ∈ builtinScalars)
  unknown : ∀ name, compiled.type name = .error (.schema (.unknownRef name)) ↔
    ¬ (name ∈ setup.schema.enums.names ∨ name ∈ setup.schema.objects.names ∨
      name ∈ builtinScalars ∨ name ∈ setup.schema.scalars.names)
  -- in particular no name is ambiguous, and none is a type of a kind that is not there
  refused : ∀ name cause, compiled.type name = .error cause →
    cause = .missingStrategy name ∨ cause = .schema (.unknownRef name)
  types : compiled.typeNames = setup.schema.enums.names ++ setup.schema.objects.names ++
    builtinScalars ++ setup.schema.scalars.names.filter fun name =>
      name ∉ builtinScalars ∧ name ∈ setup.scalars.overrides.names
  once : compiled.typeNames.Nodup
  listed : ∀ name, name ∈ compiled.typeNames ↔ ∃ strategy, compiled.type name = .ok strategy
  queries : ∀ query, (∃ strategy, compiled.query query = .ok strategy) ↔
    query ∈ setup.schema.queries.names

theorem answers_of_compile (compiles : setup.compile = .ok compiled) : setup.Answers compiled where
  given name := by rw [Compiled.type_ok_iff, mem_typeNames compiles]
  missing _ := type_missing_iff compiles
  unknown _ := type_unknown_iff compiles
  refused name cause failed := by
    rw [type_refused compiles (Compiled.unlisted_of_error failed)] at failed
    split at failed
    · cases failed
      exact .inl rfl
    · cases failed
      exact .inr rfl
  types := typeNames_eq compiles
  once := compiled.types.distinct
  listed _ := Compiled.type_ok_iff.symm
  queries query := by rw [Compiled.query_ok_iff, queryNames_eq compiles]

-- Queries, whatever their names, have no part in this.
theorem names_answered (compiles : setup.compile = .ok compiled) :
    setup.Answers compiled ∧ ∀ queries other,
      ({ setup with schema := { setup.schema with queries } } : Setup).compile = .ok other →
        other.typeNames = compiled.typeNames ∧ ∀ name, other.type name = compiled.type name := by
  refine ⟨answers_of_compile compiles, fun queries other compilesToo => ⟨?_, fun name => ?_⟩⟩
  · rw [typeNames_eq compiles, typeNames_eq compilesToo]
  · rw [type_eq_plainRoot compilesToo, type_eq_plainRoot compiles]
    exact plainRoot_local fun _ _ => ⟨rfl, rfl, rfl, fun _ => rfl, fun _ => rfl, rfl⟩

-- A query named as an enum, one named as a scalar, and a built-in scalar declared again.
def playbill : Setup where
  schema := (((((((({} : Schema).withObject "film"
      [("title", .named "String"), ("price", .named "Money")]).withEnum "Mood"
      ["calm", "grim"]).withScalar "Money").withScalar "Int").withScalar "Date").withQuery "Mood"
      (.list (.named "film"))).withQuery "Date" (.named "Mood")).withQuery "films"
      (.list (.named "film"))
  scalars := ({} : Scalars).withOverride "Money" (.intRange 1 9)

theorem playbill_names_answered : ∃ compiled, playbill.compile = .ok compiled ∧
    compiled.typeNames =
      ["Mood", "film", "Int", "Float", "String", "Boolean", "ID", "Money"] ∧
    compiled.type "Date" = .error (.missingStrategy "Date") ∧
    compiled.type "films" = .error (.schema (.unknownRef "films")) ∧
    ∃ strategy, compiled.query "Date" = .ok strategy := by
  have compiles : playbill.compile = .ok _ := rfl
  obtain ⟨answers, _⟩ := names_answered compiles
  refine ⟨_, rfl, answers.types, (answers.missing "Date").mpr ?_,
    (answers.unknown "films").mpr ?_, (answers.queries "Date").mpr ?_⟩ <;> decide

end Setup

end SchemaSampler
