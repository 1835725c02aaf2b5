import Mathlib.Data.List.Perm.Basic
import SchemaSampler.Registry
import SchemaSampler.Proofs.Keyed

namespace SchemaSampler.Schema

variable {schema : Schema} {name : String} {kind : TypeKind}

theorem object_ok {type : ObjectType} :
    schema.object name = .ok type ↔ schema.objects.get? name = some type := by
  unfold object
  cases schema.objects.get? name <;> simp

theorem enum_ok {type : EnumType} :
    schema.enum name = .ok type ↔ schema.enums.get? name = some type := by
  unfold enum
  cases schema.enums.get? name <;> simp

-- The built-in scalars are declared in every schema, and a query is no type.
def Declares (schema : Schema) (name : String) : TypeKind → Prop
  | .enum => name ∈ schema.enums.names
  | .object => name ∈ schema.objects.names
  | .scalar => name ∈ builtinScalars ∨ name ∈ schema.scalars.names
  | .query => False

theorem mem_kinds : kind ∈ schema.kinds name ↔ schema.Declares name kind := by
  have builtin : isBuiltin name = true ↔ name ∈ builtinScalars := List.contains_iff_mem
  have listed : kind ∈ schema.kinds name ↔
      (kind = .enum ∧ schema.enums.contains name = true) ∨
      (kind = .object ∧ schema.objects.contains name = true) ∨
      (kind = .scalar ∧ (schema.scalars.contains name = true ∨ isBuiltin name = true)) := by
    unfold kinds
    cases schema.enums.contains name <;> cases schema.objects.contains name <;>
      cases schema.scalars.contains name <;> cases isBuiltin name <;> simp
  rw [listed]
  simp only [Keyed.contains_iff, builtin]
  cases kind <;> simp [Declares, or_comm]

instance (schema : Schema) (name : String) (kind : TypeKind) :
    Decidable (schema.Declares name kind) := decidable_of_iff _ mem_kinds

theorem kinds_nodup (schema : Schema) (name : String) : (schema.kinds name).Nodup := by
  unfold kinds
  cases schema.enums.contains name <;> cases schema.objects.contains name <;>
    cases schema.scalars.contains name || isBuiltin name <;> simp

theorem classify_eq_ok : schema.classify name = .ok kind ↔ schema.kinds name = [kind] := by
  unfold classify
  split
  · rename_i none
    simp [none]
  · rename_i only one
    simp [one]
  · rename_i several notNone notOne
    constructor
    · intro impossible
      cases impossible
    · intro one
      exact absurd one (notOne kind)

theorem classify_eq_unknown :
    schema.classify name = .error (.unknownRef name) ↔ schema.kinds name = [] := by
  unfold classify
  split
  · rename_i none
    simp [none]
  · rename_i only one
    simp [one]
  · rename_i several notNone notOne
    exact iff_of_false nofun notNone

theorem classify_eq_ambiguous {kinds : List TypeKind} :
    schema.classify name = .error (.ambiguous name kinds) ↔
      kinds = schema.kinds name ∧ 2 ≤ kinds.length := by
  unfold classify
  split
  · rename_i none
    refine iff_of_false nofun ?_
    rintro ⟨rfl, several⟩
    rw [none] at several
    cases several
  · rename_i only one
    refine iff_of_false nofun ?_
    rintro ⟨rfl, several⟩
    rw [one] at several
    exact Nat.not_succ_le_self 1 several
  · rename_i notNone notOne
    constructor
    · intro same
      cases same
      refine ⟨rfl, ?_⟩
      match found : schema.kinds name with
      | [] => exact absurd found notNone
      | [only] => exact absurd found (notOne only)
      | _ :: _ :: _ => simp
    · rintro ⟨rfl, _⟩
      rfl

theorem classify_ok_iff : schema.classify name = .ok kind ↔
    schema.Declares name kind ∧ ∀ other, schema.Declares name other → other = kind := by
  rw [classify_eq_ok]
  constructor
  · intro one
    refine ⟨mem_kinds.mp (by simp [one]), fun other declared => ?_⟩
    exact List.mem_singleton.mp (one ▸ mem_kinds.mpr declared)
  · rintro ⟨declared, only⟩
    refine List.perm_singleton.mp ((List.perm_ext_iff_of_nodup ?_ (by simp)).mpr ?_)
    · exact kinds_nodup schema name
    · intro other
      rw [mem_kinds, List.mem_singleton]
      exact ⟨only other, fun same => same ▸ declared⟩

theorem classified_iff :
    (∃ kind, schema.classify name = .ok kind) ↔ ∃! kind, schema.Declares name kind := by
  simp only [classify_ok_iff]
  rfl

theorem classify_of_unique (declared : schema.Declares name kind)
    (unique : ∃! kind, schema.Declares name kind) : schema.classify name = .ok kind :=
  classify_ok_iff.mpr ⟨declared, fun _ other => unique.unique other declared⟩

theorem enum_of_classify (classified : schema.classify name = .ok .enum) :
    ∃ type, schema.enums.get? name = some type :=
  Keyed.get?_of_mem_names (classify_ok_iff.mp classified).1

theorem object_of_classify (classified : schema.classify name = .ok .object) :
    ∃ type, schema.objects.get? name = some type :=
  Keyed.get?_of_mem_names (classify_ok_iff.mp classified).1

theorem classify_object {type : ObjectType} (classified : schema.classify name = .ok kind)
    (found : schema.objects.get? name = some type) : kind = .object :=
  ((classify_ok_iff.mp classified).2 .object (Keyed.mem_names_of_get? found)).symm

theorem no_object_of_classify (classified : schema.classify name = .ok kind)
    (other : kind ≠ .object) : schema.objects.contains name = false := by
  cases found : schema.objects.get? name with
  | none => simp [Keyed.contains, found]
  | some type => exact absurd (classify_object classified found) other

theorem contains_object_iff (classified : schema.classify name = .ok kind) :
    schema.objects.contains name = true ↔ kind = .object := by
  constructor
  · intro contained
    obtain ⟨type, found⟩ := Option.isSome_iff_exists.mp contained
    exact classify_object classified found
  · rintro rfl
    exact Option.isSome_iff_exists.mpr (object_of_classify classified)

theorem classify_scalar (classified : schema.classify name = .ok kind)
    (member : name ∈ schema.names .scalar) : kind = .scalar :=
  ((classify_ok_iff.mp classified).2 .scalar (List.mem_append.mp member)).symm

inductive Refers (schema : Schema) : TypeRef → Prop where
  | field (isObject : schema.objects.get? owner = some type)
      (isField : type.fields.get? field = some declared) : Refers schema declared.ref
  | query (isQuery : schema.queries.get? asked = some declared) : Refers schema declared.ref

theorem mem_refs {ref : TypeRef} : ref ∈ schema.refs ↔ schema.Refers ref := by
  unfold refs
  rw [List.mem_append, List.mem_flatMap]
  constructor
  · rintro (⟨type, isObject, inside⟩ | inside)
    · obtain ⟨declared, isField, rfl⟩ := List.mem_map.mp inside
      obtain ⟨_, isObject⟩ := Keyed.get?_of_mem_values isObject
      obtain ⟨_, isField⟩ := Keyed.get?_of_mem_values isField
      exact .field isObject isField
    · obtain ⟨query, isQuery, rfl⟩ := List.mem_map.mp inside
      obtain ⟨_, isQuery⟩ := Keyed.get?_of_mem_values isQuery
      exact .query isQuery
  · rintro (⟨isObject, isField⟩ | isQuery)
    · exact .inl ⟨_, Keyed.mem_values_of_get? isObject,
        List.mem_map_of_mem (Keyed.mem_values_of_get? isField)⟩
    · exact .inr (List.mem_map_of_mem (Keyed.mem_values_of_get? isQuery))

end SchemaSampler.Schema
