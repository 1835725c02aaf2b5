import Mathlib.Data.List.Nodup
import SchemaSampler.Proofs.Outcome
import SchemaSampler.Proofs.Registry

namespace SchemaSampler.Schema

variable {schema : Schema} {name : String} {kind : TypeKind}

def Resolves (schema : Schema) (kind : TypeKind) (name : String) : Prop :=
  ∃ definition, schema.resolve kind name = .ok definition

def Redeclares (schema : Schema) (name : String) : Prop :=
  name ∈ builtinScalars ∧ name ∈ schema.scalars.names

instance (schema : Schema) (name : String) : Decidable (schema.Redeclares name) :=
  inferInstanceAs (Decidable (_ ∧ _))

def typeKinds : List TypeKind := [.enum, .object, .scalar]

theorem query_ok {query : QueryDef} :
    schema.query name = .ok query ↔ schema.queries.get? name = some query := by
  unfold Schema.query
  cases schema.queries.get? name <;> simp

theorem resolves_scalar_iff : schema.Resolves .scalar name ↔
    name ∈ builtinScalars ∨ name ∈ schema.scalars.names := by
  have builtin : isBuiltin name = true ↔ name ∈ builtinScalars := List.contains_iff_mem
  rw [← builtin, ← Keyed.contains_iff, Keyed.contains]
  unfold Resolves resolve
  cases schema.scalars.get? name with
  | some type => simp
  | none => cases isBuiltin name <;> simp

theorem resolves_iff_listed : schema.Resolves kind name ↔ name ∈ schema.names kind := by
  cases kind with
  | enum =>
    refine Outcome.map_runs_iff.trans ?_
    simp only [enum_ok, ← Keyed.mem_names_iff, names]
  | object =>
    refine Outcome.map_runs_iff.trans ?_
    simp only [object_ok, ← Keyed.mem_names_iff, names]
  | scalar => exact resolves_scalar_iff.trans List.mem_append.symm
  | query =>
    refine Outcome.map_runs_iff.trans ?_
    simp only [query_ok, ← Keyed.mem_names_iff, names]

instance (schema : Schema) (kind : TypeKind) (name : String) :
    Decidable (schema.Resolves kind name) := decidable_of_iff _ resolves_iff_listed.symm

theorem builtinScalars_nodup : builtinScalars.Nodup := by decide

theorem count_names (schema : Schema) (kind : TypeKind) (name : String) :
    (schema.names kind).count name =
      if schema.Resolves kind name then
        if kind = .scalar ∧ schema.Redeclares name then 2 else 1
      else 0 := by
  simp only [resolves_iff_listed]
  cases kind with
  | enum => simp [names, schema.enums.distinct.count, Keyed.names]
  | object => simp [names, schema.objects.distinct.count, Keyed.names]
  | query => simp [names, schema.queries.distinct.count, Keyed.names]
  | scalar =>
    have declared : schema.scalars.names.Nodup := schema.scalars.distinct
    simp only [names, List.count_append, builtinScalars_nodup.count, declared.count,
      List.mem_append, Redeclares]
    by_cases builtin : name ∈ builtinScalars <;> by_cases own : name ∈ schema.scalars.names <;>
      simp [builtin, own]

theorem kinds_eq_resolving (schema : Schema) (name : String) :
    schema.kinds name = typeKinds.filter (schema.Resolves · name) := by
  have enums : schema.enums.contains name = true ↔ schema.Resolves .enum name := by
    rw [Keyed.contains_iff, resolves_iff_listed, names]
  have objects : schema.objects.contains name = true ↔ schema.Resolves .object name := by
    rw [Keyed.contains_iff, resolves_iff_listed, names]
  have scalars : (schema.scalars.contains name || isBuiltin name) = true ↔
      schema.Resolves .scalar name := by
    rw [resolves_scalar_iff, Bool.or_eq_true, Keyed.contains_iff, or_comm]
    exact or_congr_left List.contains_iff_mem
  simp only [kinds, typeKinds, enums, objects, scalars, List.filter_cons, List.filter_nil,
    decide_eq_true_eq]
  split <;> split <;> split <;> rfl

theorem classify_ok_resolving : schema.classify name = .ok kind ↔
    kind ∈ typeKinds ∧ schema.Resolves kind name ∧
      ∀ other ∈ typeKinds, schema.Resolves other name → other = kind := by
  have member : ∀ kind, schema.Declares name kind ↔
      kind ∈ typeKinds ∧ schema.Resolves kind name := by
    intro kind
    rw [← mem_kinds, kinds_eq_resolving, List.mem_filter, decide_eq_true_eq]
  rw [classify_ok_iff]
  simp only [member, and_assoc, and_imp]

theorem classify_unknown_resolving : schema.classify name = .error (.unknownRef name) ↔
    ∀ kind ∈ typeKinds, ¬ schema.Resolves kind name := by
  rw [classify_eq_unknown, kinds_eq_resolving, List.filter_eq_nil_iff]
  simp only [decide_eq_true_eq]

-- A built-in scalar that is declared again is listed twice. What a name is ambiguous between is
-- told in the order of the kinds, and queries have no say.
theorem views_agree (schema : Schema) :
    (∀ kind name, (schema.names kind).count name =
      if schema.Resolves kind name then
        if kind = .scalar ∧ schema.Redeclares name then 2 else 1
      else 0) ∧
    (∀ name kind, schema.classify name = .ok kind ↔
      kind ∈ typeKinds ∧ schema.Resolves kind name ∧
        ∀ other ∈ typeKinds, schema.Resolves other name → other = kind) ∧
    (∀ name, schema.classify name = .error (.unknownRef name) ↔
      ∀ kind ∈ typeKinds, ¬ schema.Resolves kind name) ∧
    (∀ name kinds, schema.classify name = .error (.ambiguous name kinds) ↔
      kinds = typeKinds.filter (schema.Resolves · name) ∧ 2 ≤ kinds.length) ∧
    ∀ queries name, { schema with queries }.classify name = schema.classify name := by
  refine ⟨schema.count_names, fun _ _ => classify_ok_resolving,
    fun _ => classify_unknown_resolving, fun name kinds => ?_, fun _ _ => rfl⟩
  rw [← kinds_eq_resolving]
  exact classify_eq_ambiguous

def counted : Schema := ({} : Schema).withScalar "Int"

theorem redeclared_listed_twice : counted.Resolves .scalar "Int" ∧
    (counted.names .scalar).count "Int" ≠ 1 := by
  decide

end SchemaSampler.Schema
