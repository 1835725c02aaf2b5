import SchemaSampler.Projection
import SchemaSampler.Proofs.Registry

namespace SchemaSampler

inductive Scope where
  | root
  | object (type : String)
  deriving DecidableEq

namespace Scope

def typeName : Scope → String
  | root => rootType
  | object type => type

def undeclared : Scope → String → GenerationError
  | root, name => .schema (.unknownType .query name)
  | object type, name => .unknownField type name

end Scope

namespace Schema

def refIn? (schema : Schema) : Scope → String → Option TypeRef
  | .root, name => (schema.queries.get? name).map QueryDef.ref
  | .object type, name =>
    (schema.objects.get? type).bind fun object => (object.fields.get? name).map FieldDef.ref

inductive WellTyped (schema : Schema) : Scope → Selection → Prop where
  | typeName : WellTyped schema scope ⟨typeNameField, label, none⟩
  | whole (other : name ≠ typeNameField) (declared : schema.refIn? scope name = some ref) :
      WellTyped schema scope ⟨name, label, none⟩
  | nested (other : name ≠ typeNameField) (declared : schema.refIn? scope name = some ref)
      (isObject : schema.objects.contains ref.base = true)
      (each : ∀ selection ∈ selections, WellTyped schema (.object ref.base) selection) :
      WellTyped schema scope ⟨name, label, some selections⟩

inductive Misfit (schema : Schema) : Scope × Selection → GenerationError → Prop where
  | typeName : Misfit schema (scope, ⟨typeNameField, label, some selections⟩)
      (.selectionOnLeaf scope.typeName typeNameField)
  | query (other : name ≠ typeNameField) (undeclared : schema.refIn? .root name = none) :
      Misfit schema (.root, ⟨name, label, nested⟩) (.schema (.unknownType .query name))
  | field (other : name ≠ typeNameField) (undeclared : schema.refIn? (.object type) name = none) :
      Misfit schema (.object type, ⟨name, label, nested⟩) (.unknownField type name)
  | leaf (other : name ≠ typeNameField) (declared : schema.refIn? scope name = some ref)
      (noObject : schema.objects.contains ref.base = false) :
      Misfit schema (scope, ⟨name, label, some selections⟩) (.selectionOnLeaf scope.typeName name)

def below? (schema : Schema) (scope : Scope) (name : String) : Option String :=
  if name = typeNameField then none
  else ((schema.refIn? scope name).map TypeRef.base).filter schema.objects.contains

mutual

-- In the order of the document: every selection before those nested in it.
def sites (schema : Schema) (scope : Scope) : Selection → List (Scope × Selection)
  | ⟨name, label, none⟩ => [(scope, ⟨name, label, none⟩)]
  | ⟨name, label, some selections⟩ =>
    (scope, ⟨name, label, some selections⟩) ::
      match schema.below? scope name with
      | some type => schema.allSites (.object type) selections
      | none => []

def allSites (schema : Schema) (scope : Scope) : List Selection → List (Scope × Selection)
  | [] => []
  | selection :: rest => schema.sites scope selection ++ schema.allSites scope rest

end

section

variable {schema : Schema} {scope : Scope} {name : String} {label : Option String}
  {ref : TypeRef} {selections : List Selection}

theorem sites_nested (other : name ≠ typeNameField)
    (declared : schema.refIn? scope name = some ref)
    (isObject : schema.objects.contains ref.base = true) :
    schema.sites scope ⟨name, label, some selections⟩ =
      (scope, ⟨name, label, some selections⟩) :: schema.allSites (.object ref.base) selections := by
  simp [sites, below?, other, declared, isObject, Option.filter]

theorem mem_sites (schema : Schema) (scope : Scope) (selection : Selection) :
    (scope, selection) ∈ schema.sites scope selection := by
  obtain ⟨name, label, nested⟩ := selection
  cases nested <;> simp [sites]

theorem refers_of_refIn (declared : schema.refIn? scope name = some ref) : schema.Refers ref := by
  cases scope with
  | root =>
    obtain ⟨query, isQuery, rfl⟩ := Option.map_eq_some_iff.mp declared
    exact .query isQuery
  | object type =>
    obtain ⟨object, isObject, inside⟩ := Option.bind_eq_some_iff.mp declared
    obtain ⟨field, isField, rfl⟩ := Option.map_eq_some_iff.mp inside
    exact .field isObject isField

theorem misfit_of_undeclared {nested : Option (List Selection)} (other : name ≠ typeNameField)
    (unknown : schema.refIn? scope name = none) :
    schema.Misfit (scope, ⟨name, label, nested⟩) (scope.undeclared name) := by
  cases scope with
  | root => exact .query other unknown
  | object type => exact .field other unknown

theorem no_misfit_of_whole (other : name ≠ typeNameField)
    (declared : schema.refIn? scope name = some ref) (cause : GenerationError) :
    ¬ schema.Misfit (scope, ⟨name, label, none⟩) cause := by
  intro misfit
  cases misfit with
  | query _ undeclared => simp [declared] at undeclared
  | field _ undeclared => simp [declared] at undeclared

theorem no_misfit_of_object (other : name ≠ typeNameField)
    (declared : schema.refIn? scope name = some ref)
    (isObject : schema.objects.contains ref.base = true) (cause : GenerationError) :
    ¬ schema.Misfit (scope, ⟨name, label, some selections⟩) cause := by
  intro misfit
  cases misfit with
  | typeName => exact other rfl
  | query _ undeclared => simp [declared] at undeclared
  | field _ undeclared => simp [declared] at undeclared
  | leaf _ found noObject =>
    rw [declared] at found
    cases found
    simp [isObject] at noObject

end

mutual

theorem wellTyped_iff {schema : Schema} : ∀ (selection : Selection) {scope : Scope},
    schema.WellTyped scope selection ↔
      ∀ site ∈ schema.sites scope selection, ∀ cause, ¬ schema.Misfit site cause
  | ⟨name, label, none⟩, scope => by
    rw [sites, List.forall_mem_singleton]
    constructor
    · intro typed cause
      cases typed with
      | typeName =>
        intro misfit
        cases misfit with
        | query other => exact other rfl
        | field other => exact other rfl
      | whole other declared => exact no_misfit_of_whole other declared cause
    · intro fits
      by_cases special : name = typeNameField
      · subst special
        exact .typeName
      · cases declared : schema.refIn? scope name with
        | none => exact absurd (misfit_of_undeclared special declared) (fits _)
        | some ref => exact .whole special declared
  | ⟨name, label, some selections⟩, scope => by
    constructor
    · intro typed
      cases typed with
      | nested other declared isObject each =>
        rw [sites_nested other declared isObject, List.forall_mem_cons]
        exact ⟨no_misfit_of_object other declared isObject, (allWellTyped_iff selections).mp each⟩
    · intro fits
      have here := fits _ (schema.mem_sites scope _)
      by_cases special : name = typeNameField
      · subst special
        exact absurd .typeName (here _)
      · cases declared : schema.refIn? scope name with
        | none => exact absurd (misfit_of_undeclared special declared) (here _)
        | some ref =>
          by_cases isObject : schema.objects.contains ref.base = true
          · rw [sites_nested special declared isObject, List.forall_mem_cons] at fits
            exact .nested special declared isObject ((allWellTyped_iff selections).mpr fits.2)
          · exact absurd (.leaf special declared ((Bool.not_eq_true _).mp isObject)) (here _)

theorem allWellTyped_iff {schema : Schema} : ∀ (selections : List Selection) {scope : Scope},
    (∀ selection ∈ selections, schema.WellTyped scope selection) ↔
      ∀ site ∈ schema.allSites scope selections, ∀ cause, ¬ schema.Misfit site cause
  | [], scope => by simp [allSites]
  | selection :: rest, scope => by
    rw [List.forall_mem_cons, allSites, List.forall_mem_append, wellTyped_iff selection,
      allWellTyped_iff rest]

end

end Schema

def FirstFault (sites : List (Scope × Selection))
    (faulty : Scope × Selection → GenerationError → Prop) (cause : GenerationError) : Prop :=
  ∃ before site after, sites = before ++ site :: after ∧
    (∀ earlier ∈ before, ∀ other, ¬ faulty earlier other) ∧ faulty site cause

section

variable {sites : List (Scope × Selection)} {fault? : Scope × Selection → Option GenerationError}
  {faulty : Scope × Selection → GenerationError → Prop}

theorem findSome_eq_none_iff
    (each : ∀ site ∈ sites, ∀ cause, fault? site = some cause ↔ faulty site cause) :
    sites.findSome? fault? = none ↔ ∀ site ∈ sites, ∀ cause, ¬ faulty site cause := by
  rw [List.findSome?_eq_none_iff]
  refine forall₂_congr fun site member => ?_
  rw [Option.eq_none_iff_forall_ne_some]
  exact forall_congr' fun cause => not_congr (each site member cause)

theorem findSome_eq_some_iff {cause : GenerationError}
    (each : ∀ site ∈ sites, ∀ cause, fault? site = some cause ↔ faulty site cause) :
    sites.findSome? fault? = some cause ↔ FirstFault sites faulty cause := by
  rw [List.findSome?_eq_some_iff]
  constructor
  · rintro ⟨before, site, after, rfl, here, clear⟩
    refine ⟨before, site, after, rfl, fun earlier member other fault => ?_, ?_⟩
    · have found := (each earlier (List.mem_append_left _ member) other).mpr fault
      rw [clear earlier member] at found
      cases found
    · exact (each site (by simp) cause).mp here
  · rintro ⟨before, site, after, rfl, clear, here⟩
    refine ⟨before, site, after, rfl, (each site (by simp) cause).mpr here, fun earlier member => ?_⟩
    refine Option.eq_none_iff_forall_ne_some.mpr fun other found => ?_
    exact clear earlier member other ((each earlier (List.mem_append_left _ member) other).mp found)

end

end SchemaSampler
