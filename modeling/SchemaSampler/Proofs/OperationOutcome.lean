import SchemaSampler.Proofs.Acceptance
import SchemaSampler.Proofs.SelectionTyping
import SchemaSampler.Proofs.Wrapping

-- Selecting fails where a selection does not fit where it stands, or takes the whole of a list
-- without room whose scalar has no strategy.

namespace SchemaSampler

def Scope.Tells (schema : Schema) (scope : Scope)
    (refOf : String → Except GenerationError TypeRef) : Prop :=
  ∀ name, refOf name =
    match schema.refIn? scope name with
    | some ref => .ok ref
    | none => .error (scope.undeclared name)

namespace Setup

-- The whole of a list without room is selected, and its scalar has no strategy.
inductive Stranded (setup : Setup) : Scope × Selection → GenerationError → Prop where
  | whole {ref : TypeRef} (other : name ≠ typeNameField)
      (declared : setup.schema.refIn? scope name = some ref) (inList : ref.isList = true)
      (shut : setup.policy.maxWidth ref.base = some 0)
      (isScalar : setup.schema.Declares ref.base .scalar) (lacks : setup.scalars.has ref.base = false) :
      Stranded setup (scope, ⟨name, label, none⟩) (.missingStrategy ref.base)

def missing? (setup : Setup) (name : String) : Option GenerationError :=
  if setup.schema.Declares name .scalar ∧ setup.scalars.has name = false then
    some (.missingStrategy name)
  else none

def fault? (setup : Setup) : Scope × Selection → Option GenerationError
  | (scope, ⟨name, _, nested⟩) =>
    if name = typeNameField then
      if nested.isSome then some (.selectionOnLeaf scope.typeName typeNameField) else none
    else
      match setup.schema.refIn? scope name, nested with
      | none, _ => some (scope.undeclared name)
      | some ref, none => setup.missing? ref.base
      | some ref, some _ =>
        if setup.schema.objects.contains ref.base then none
        else some (.selectionOnLeaf scope.typeName name)

variable {setup : Setup} {compiled : Compiled} {scope : Scope} {name : String} {ref : TypeRef}

theorem tells_root (compiles : setup.compile = .ok compiled) :
    Scope.root.Tells setup.schema compiled.queryRef := by
  intro name
  unfold Compiled.queryRef Schema.query Schema.refIn?
  rw [compile_schema compiles]
  dsimp only
  cases setup.schema.queries.get? name <;> rfl

theorem tells_object {schema : Schema} {object : ObjectType}
    (isObject : schema.objects.get? name = some object) :
    (Scope.object name).Tells schema (Compiled.fieldRef name object) := by
  intro field
  unfold Compiled.fieldRef Schema.refIn?
  dsimp only
  rw [isObject, Option.bind_some]
  cases object.fields.get? field <;> rfl

theorem type_error (compiles : setup.compile = .ok compiled) {kind : TypeKind}
    (classified : setup.schema.classify name = .ok kind) :
    Outcome.error? (compiled.type name) = setup.missing? name := by
  obtain ⟨declared, only⟩ := Schema.classify_ok_iff.mp classified
  unfold missing?
  by_cases lacks : setup.schema.Declares name .scalar ∧ setup.scalars.has name = false
  · obtain ⟨isScalar, hasNone⟩ := lacks
    have sameKind := only _ isScalar
    subst sameKind
    rw [if_pos ⟨isScalar, hasNone⟩, type_eq_plainRoot compiles, plainRoot, descent_named classified,
      plainNamed, Scalars.strategy_missing (by simp [hasNone])]
    rfl
  · have drawable : kind = .scalar → setup.scalars.has name = true := by
      rintro rfl
      simpa using not_and.mp lacks declared
    rw [if_neg lacks, ← Outcome.runs_iff]
    exact type_known compiles classified drawable

theorem ref_error (compiles : setup.compile = .ok compiled) {kind : TypeKind}
    (classified : setup.schema.classify ref.base = .ok kind) :
    Outcome.error? (compiled.ref ref) = setup.missing? ref.base := by
  rw [compiled.ref_eq_wrap, Outcome.error?_map, type_error compiles classified]

theorem selectedObject_error {object : ObjectType} {selections : List Selection}
    (isObject : compiled.schema.objects.get? name = some object) :
    Outcome.error? (compiled.selectedObject selections name) =
      Outcome.error? (compiled.allSelected name (Compiled.fieldRef name object) selections) := by
  unfold Compiled.selectedObject
  rw [Schema.object_ok.mpr isObject]
  exact Outcome.error?_map Strategy.record _

theorem findSome_sites {selection : Selection} {cause : GenerationError}
    (faulty : setup.fault? (scope, selection) = some cause) :
    (setup.schema.sites scope selection).findSome? setup.fault? = some cause := by
  obtain ⟨name, label, nested⟩ := selection
  cases nested <;> simp [Schema.sites, faulty]

mutual

theorem selected_error (compiles : setup.compile = .ok compiled) : ∀ (selection : Selection)
    {scope : Scope} {refOf : String → Except GenerationError TypeRef},
    scope.Tells setup.schema refOf →
      Outcome.error? (compiled.selected scope.typeName refOf selection) =
        (setup.schema.sites scope selection).findSome? setup.fault?
  | ⟨name, label, none⟩, scope, refOf, tells => by
    by_cases special : name = typeNameField
    · simp [Compiled.selected, Schema.sites, fault?, special, Outcome.error?]
    · rw [Compiled.selected_whole special, tells name]
      cases declared : setup.schema.refIn? scope name with
      | none => exact (findSome_sites (by simp [fault?, special, declared])).symm
      | some ref =>
        obtain ⟨kind, classified⟩ := classify_of_refers compiles (Schema.refers_of_refIn declared)
        rw [Outcome.ok_bind, Outcome.error?_map, ref_error compiles classified]
        simp [Schema.sites, fault?, special, declared]
  | ⟨name, label, some selections⟩, scope, refOf, tells => by
    by_cases special : name = typeNameField
    · simp [Compiled.selected, Schema.sites, fault?, special, Outcome.error?]
    · rw [Compiled.selected_nested special, tells name]
      cases declared : setup.schema.refIn? scope name with
      | none => exact (findSome_sites (by simp [fault?, special, declared])).symm
      | some ref =>
        obtain ⟨kind, classified⟩ := classify_of_refers compiles (Schema.refers_of_refIn declared)
        have sameKind := Schema.contains_object_iff classified
        have sameSchema := compile_schema compiles
        rw [← sameSchema] at classified
        rw [Outcome.ok_bind, Outcome.error?_map]
        by_cases isObject : setup.schema.objects.contains ref.base = true
        · obtain ⟨object, found⟩ := Option.isSome_iff_exists.mp isObject
          have fits : setup.fault? (scope, ⟨name, label, some selections⟩) = none := by
            simp [fault?, special, declared, isObject]
          rw [Schema.sites_nested special declared isObject, List.findSome?_cons, fits,
            Compiled.through_object (sameKind.mp isObject ▸ classified), Outcome.error?_map,
            selectedObject_error (sameSchema ▸ found)]
          exact allSelected_error compiles selections (tells_object found)
        · rw [Compiled.through_leaf classified (mt sameKind.mpr isObject)]
          exact (findSome_sites (by simp [fault?, special, declared, isObject])).symm

theorem allSelected_error (compiles : setup.compile = .ok compiled) : ∀ (selections : List Selection)
    {scope : Scope} {refOf : String → Except GenerationError TypeRef},
    scope.Tells setup.schema refOf →
      Outcome.error? (compiled.allSelected scope.typeName refOf selections) =
        (setup.schema.allSites scope selections).findSome? setup.fault?
  | [], scope, refOf, tells => rfl
  | selection :: rest, scope, refOf, tells => by
    unfold Compiled.allSelected Schema.allSites
    rw [List.findSome?_append, ← selected_error compiles selection tells,
      ← allSelected_error compiles rest tells]
    refine Outcome.error?_bind fun first _ => ?_
    rw [← map_eq_pure_bind, Outcome.error?_map]

end

theorem projectOperation_error (compiles : setup.compile = .ok compiled)
    (operation : List Selection) :
    Outcome.error? (compiled.projectOperation operation) =
      (setup.schema.allSites .root operation).findSome? setup.fault? := by
  rw [← allSelected_error compiles operation (tells_root compiles)]
  exact Outcome.error?_map Strategy.envelope _

-- A compilation looks at every scalar but those in lists without room.
theorem stranded_of_missing {label : Option String} {cause : GenerationError}
    (compiles : setup.compile = .ok compiled) (other : name ≠ typeNameField)
    (declared : setup.schema.refIn? scope name = some ref)
    (missing : setup.missing? ref.base = some cause) :
    setup.Stranded (scope, ⟨name, label, none⟩) cause := by
  unfold missing? at missing
  split at missing
  · rename_i undrawable
    obtain ⟨isScalar, lacks⟩ := undrawable
    cases missing
    have looked := (acceptable_of_ok compiles).reached ref (Schema.refers_of_refIn declared) isScalar
    rw [lacks, imp_iff_not_or] at looked
    simp only [not_or, Bool.not_eq_false, ne_eq, not_not, Bool.false_eq_true, or_false] at looked
    exact .whole other declared looked.1 looked.2 isScalar lacks
  · cases missing

theorem fault_iff (compiles : setup.compile = .ok compiled) (site : Scope × Selection)
    (cause : GenerationError) :
    setup.fault? site = some cause ↔
      setup.schema.Misfit site cause ∨ setup.Stranded site cause := by
  constructor
  · obtain ⟨scope, name, label, nested⟩ := site
    intro found
    by_cases special : name = typeNameField
    · subst special
      cases nested with
      | none => simp [fault?] at found
      | some selections =>
        have same : .selectionOnLeaf scope.typeName typeNameField = cause := by
          simpa [fault?] using found
        exact .inl (same ▸ .typeName)
    · cases declared : setup.schema.refIn? scope name with
      | none =>
        have same : scope.undeclared name = cause := by simpa [fault?, special, declared] using found
        exact .inl (same ▸ Schema.misfit_of_undeclared special declared)
      | some ref =>
        cases nested with
        | none =>
          have missing : setup.missing? ref.base = some cause := by
            simpa [fault?, special, declared] using found
          exact .inr (stranded_of_missing compiles special declared missing)
        | some selections =>
          cases noObject : setup.schema.objects.contains ref.base with
          | true => simp [fault?, special, declared, noObject] at found
          | false =>
            have same : .selectionOnLeaf scope.typeName name = cause := by
              simpa [fault?, special, declared, noObject] using found
            exact .inl (same ▸ .leaf special declared noObject)
  · rintro (misfit | stranded)
    · cases misfit with
      | typeName => simp [fault?]
      | query other undeclared => simp [fault?, other, undeclared, Scope.undeclared]
      | field other undeclared => simp [fault?, other, undeclared, Scope.undeclared]
      | leaf other declared noObject => simp [fault?, other, declared, noObject]
    · cases stranded with
      | whole other declared _ _ isScalar lacks =>
        simp [fault?, other, declared, missing?, isScalar, lacks]

-- An operation that is not well typed has the fault of its first misfit in document order.
theorem operation_runs_iff_wellTyped (compiles : setup.compile = .ok compiled)
    (drawable : ∀ name ∈ setup.schema.scalars.names, setup.scalars.has name = true)
    (operation : List Selection) :
    ((∃ strategy, compiled.projectOperation operation = .ok strategy) ↔
      ∀ selection ∈ operation, setup.schema.WellTyped .root selection) ∧
    ∀ cause, compiled.projectOperation operation = .error cause ↔
      FirstFault (setup.schema.allSites .root operation) setup.schema.Misfit cause := by
  have each : ∀ site ∈ setup.schema.allSites .root operation, ∀ cause,
      setup.fault? site = some cause ↔ setup.schema.Misfit site cause := by
    intro site _ cause
    refine (fault_iff compiles site cause).trans (or_iff_left fun stranded => ?_)
    cases stranded with
    | whole _ _ _ _ isScalar lacks =>
      rcases isScalar with builtin | own
      · simp [Scalars.has_of_builtin _ _ builtin] at lacks
      · simp [drawable _ own] at lacks
  constructor
  · rw [Outcome.runs_iff, projectOperation_error compiles, findSome_eq_none_iff each,
      Schema.allWellTyped_iff]
  · intro cause
    rw [Outcome.eq_error_iff, projectOperation_error compiles, findSome_eq_some_iff each]

def league : Setup where
  schema := (((({} : Schema).withScalar "Date").withObject "team"
      [("name", .named "String"), ("players", .nonNull (.list (.named "player")))]).withObject "player"
      [("name", .named "String"), ("born", .named "Date"), ("team", .named "team")]).withQuery "teams"
      (.list (.named "team"))
  policy := ({} : Policy).withDefaultDepth 0
  scalars := ({} : Scalars).withOverride "Date" (.text 10)

-- Nothing is nested in a name; teams have no coach; there is no query for referees.
def leagueOperation : List Selection :=
  [⟨"teams", some "all", some [⟨"players", none, some [⟨"__typename", none, none⟩,
      ⟨"team", none, some [⟨"players", none, none⟩]⟩, ⟨"name", some "born", some []⟩]⟩,
      ⟨"coach", none, none⟩]⟩, ⟨"referees", none, none⟩]

theorem league_first_misfit : ∃ compiled, league.compile = .ok compiled ∧
    (∀ name ∈ league.schema.scalars.names, league.scalars.has name = true) ∧
    compiled.projectOperation leagueOperation = .error (.selectionOnLeaf "player" "name") ∧
    FirstFault (league.schema.allSites .root leagueOperation) league.schema.Misfit
      (.selectionOnLeaf "player" "name") := by
  have drawable : ∀ name ∈ league.schema.scalars.names, league.scalars.has name = true := by decide
  exact ⟨_, rfl, drawable, rfl,
    ((operation_runs_iff_wellTyped rfl drawable leagueOperation).2 _).mp rfl⟩

-- Compiling does not look into a list without room, selecting does.
theorem wellTyped_operation_runs_iff (compiles : setup.compile = .ok compiled)
    {operation : List Selection}
    (typed : ∀ selection ∈ operation, setup.schema.WellTyped .root selection) :
    ((∃ strategy, compiled.projectOperation operation = .ok strategy) ↔
      ∀ site ∈ setup.schema.allSites .root operation, ∀ cause, ¬ setup.Stranded site cause) ∧
    ∀ cause, compiled.projectOperation operation = .error cause ↔
      FirstFault (setup.schema.allSites .root operation) setup.Stranded cause := by
  have fits := (Schema.allWellTyped_iff operation).mp typed
  have each : ∀ site ∈ setup.schema.allSites .root operation, ∀ cause,
      setup.fault? site = some cause ↔ setup.Stranded site cause :=
    fun site member cause =>
      (fault_iff compiles site cause).trans (or_iff_right (fits site member cause))
  constructor
  · rw [Outcome.runs_iff, projectOperation_error compiles, findSome_eq_none_iff each]
  · intro cause
    rw [Outcome.eq_error_iff, projectOperation_error compiles, findSome_eq_some_iff each]

def calendar : Setup where
  schema := ((({} : Schema).withScalar "Date").withObject "month"
      [("name", .named "String"), ("days", .list (.nonNull (.named "Date")))]).withQuery "months"
      (.list (.named "month"))
  policy := ({} : Policy).withWidth "Date" 0

def calendarOperation : List Selection :=
  [⟨"months", none, some [⟨"__typename", none, none⟩, ⟨"days", none, none⟩]⟩]

theorem calendar_typed :
    ∀ selection ∈ calendarOperation, calendar.schema.WellTyped .root selection := by
  have inside : ∀ selection ∈ [⟨"__typename", none, none⟩, ⟨"days", none, none⟩],
      calendar.schema.WellTyped (.object "month") selection := by
    rw [List.forall_mem_cons, List.forall_mem_singleton]
    exact ⟨.typeName, .whole (by decide) rfl⟩
  rw [calendarOperation, List.forall_mem_singleton]
  exact .nested (by decide) rfl rfl inside

theorem calendar_first_stranded : ∃ compiled, calendar.compile = .ok compiled ∧
    (∀ selection ∈ calendarOperation, calendar.schema.WellTyped .root selection) ∧
    FirstFault (calendar.schema.allSites .root calendarOperation) calendar.Stranded
      (.missingStrategy "Date") :=
  ⟨_, rfl, calendar_typed, ((wellTyped_operation_runs_iff rfl calendar_typed).2 _).mp rfl⟩

-- A missing strategy told by a selection, after the compilation did without it.
theorem calendar_missing_late : ∃ compiled, calendar.compile = .ok compiled ∧
    (∀ selection ∈ calendarOperation, calendar.schema.WellTyped .root selection) ∧
    compiled.projectOperation calendarOperation = .error (.missingStrategy "Date") :=
  ⟨_, rfl, calendar_typed, rfl⟩

end Setup

end SchemaSampler
