import SchemaSampler.Proofs.Acceptance
import SchemaSampler.Proofs.Wrapping

-- Selecting everything: where types do not lead back to themselves, the selection of all
-- fields at every depth comes to the whole strategy, whatever the budgets and widths.

namespace SchemaSampler

namespace Schema

variable {schema : Schema}

def Recurs (schema : Schema) (name : String) : Prop :=
  ∃ object, schema.objects.get? name = some object ∧
    ∃ entry ∈ object.fields.entries, schema.Reachable entry.2.ref.base name

inductive Spelled (schema : Schema) : List (String × FieldDef) → List Selection → Prop where
  | nil : Spelled schema [] []
  | leaf (noObject : schema.objects.get? declared.ref.base = none)
      (others : Spelled schema rest selections) :
      Spelled schema ((field, declared) :: rest) (⟨field, none, none⟩ :: selections)
  | object (isObject : schema.objects.get? declared.ref.base = some type)
      (inside : Spelled schema type.fields.entries nested)
      (others : Spelled schema rest selections) :
      Spelled schema ((field, declared) :: rest) (⟨field, none, some nested⟩ :: selections)

theorem spelled_of_each {entries : List (String × FieldDef)}
    (each : ∀ entry ∈ entries, ∀ type, schema.objects.get? entry.2.ref.base = some type →
      ∃ nested, schema.Spelled type.fields.entries nested) :
    ∃ selections, schema.Spelled entries selections := by
  induction entries with
  | nil => exact ⟨[], .nil⟩
  | cons entry rest ih =>
    obtain ⟨here, later⟩ := List.forall_mem_cons.mp each
    obtain ⟨selections, others⟩ := ih later
    cases isObject : schema.objects.get? entry.2.ref.base with
    | none => exact ⟨_, .leaf isObject others⟩
    | some type =>
      obtain ⟨nested, inside⟩ := here type isObject
      exact ⟨_, .object isObject inside others⟩

theorem not_recurs_of_rank (rank : String → Nat)
    (falls : ∀ owner ∈ schema.objects.entries, ∀ entry ∈ owner.2.fields.entries,
      rank entry.2.ref.base < rank owner.1) (name : String) : ¬ schema.Recurs name := by
  have bounded : ∀ {upper lower}, schema.Reachable upper lower → rank lower ≤ rank upper := by
    intro upper lower reached
    induction reached with
    | start => exact Nat.le_refl _
    | field _ isObject member ih =>
      exact Nat.le_trans (Nat.le_of_lt (falls _ (Keyed.get?_eq_some_iff.mp isObject) _ member)) ih
  rintro ⟨object, isObject, entry, member, reached⟩
  have lower := falls _ (Keyed.get?_eq_some_iff.mp isObject) entry member
  exact absurd (bounded reached) (Nat.not_le.mpr lower)

end Schema

namespace Setup

variable {setup : Setup} {compiled : Compiled} {path : List String} {name : String}
  {object : ObjectType} {entry : String × FieldDef}

structure Spellable (setup : Setup) (type : String) : Prop where
  ends : ∀ name, setup.schema.Reachable type name → ¬ setup.schema.Recurs name
  unmasked : ∀ name object, setup.schema.Reachable type name →
    setup.schema.objects.get? name = some object → typeNameField ∉ object.fields.names
  drawable : ∀ name, setup.schema.Reachable type name →
    setup.schema.Declares name .scalar → setup.scalars.has name = true

theorem Spellable.field (spellable : setup.Spellable name)
    (isObject : setup.schema.objects.get? name = some object)
    (member : entry ∈ object.fields.entries) : setup.Spellable entry.2.ref.base where
  ends _ reached := spellable.ends _ (reachable_field isObject member reached)
  unmasked _ _ reached := spellable.unmasked _ _ (reachable_field isObject member reached)
  drawable _ reached := spellable.drawable _ (reachable_field isObject member reached)

theorem Spellable.field_ne {field : String} {declared : FieldDef}
    (spellable : setup.Spellable name) (isObject : setup.schema.objects.get? name = some object)
    (isField : object.fields.get? field = some declared) : field ≠ typeNameField := by
  rintro rfl
  exact spellable.unmasked name object .start isObject (Keyed.mem_names_of_get? isField)

-- Nothing that a name leads to stands on the path.
def Fresh (setup : Setup) (path : List String) (name : String) : Prop :=
  ∀ reached, setup.schema.Reachable name reached → reached ∉ path

theorem fresh_nil (setup : Setup) (name : String) : setup.Fresh [] name :=
  fun _ _ => List.not_mem_nil

theorem Fresh.field (fresh : setup.Fresh path name) (spellable : setup.Spellable name)
    (isObject : setup.schema.objects.get? name = some object)
    (member : entry ∈ object.fields.entries) :
    setup.Fresh (path ++ [name]) entry.2.ref.base := by
  intro reached below inside
  rcases List.mem_append.mp inside with before | here
  · exact fresh reached (reachable_field isObject member below) before
  · rw [List.mem_singleton.mp here] at below
    exact spellable.ends name .start ⟨object, isObject, entry, member, below⟩

-- No budget is ever spent, not even one of zero.
theorem Fresh.mayEnter (fresh : setup.Fresh path name) :
    setup.policy.mayEnter name path = true := by
  rw [Policy.mayEnter_iff, List.count_eq_zero.mpr (fresh name .start)]
  exact Policy.allowed_pos

theorem exists_spelled {path : List String} {name : String} {object : ObjectType}
    (spellable : setup.Spellable name) (fresh : setup.Fresh path name)
    (isObject : setup.schema.objects.get? name = some object) :
    ∃ selections, setup.schema.Spelled object.fields.entries selections :=
  Schema.spelled_of_each fun _ member _ inner =>
    exists_spelled (spellable.field isObject member) (fresh.field spellable isObject member) inner
termination_by setup.left path
decreasing_by exact left_enter_lt (Schema.object_ok.mpr isObject) fresh.mayEnter

theorem descent_leaf {kind : TypeKind} (classified : setup.schema.classify name = .ok kind)
    (leaf : kind ≠ .object) : setup.descent path (.named name) = setup.descent [] (.named name) := by
  rw [descent_named classified, descent_named classified]
  cases kind with
  | object => exact absurd rfl leaf
  | enum => rfl
  | scalar => rfl
  | query => rfl

theorem leaf_whole {ref : TypeRef} (compiles : setup.compile = .ok compiled)
    (refers : setup.schema.Refers ref) (noObject : setup.schema.objects.get? ref.base = none)
    (drawable : setup.schema.Declares ref.base .scalar → setup.scalars.has ref.base = true)
    (path : List String) :
    ∃ strategy, compiled.ref ref = .ok strategy ∧ setup.descent path ref = .ok (some strategy) := by
  obtain ⟨kind, classified⟩ := classify_of_refers compiles refers
  have leaf : kind ≠ .object := by
    rintro rfl
    obtain ⟨type, isObject⟩ := Schema.object_of_classify classified
    rw [noObject] at isObject
    cases isObject
  have declared := (Schema.classify_ok_iff.mp classified).1
  obtain ⟨strategy, found⟩ := type_known compiles classified fun same => drawable (same ▸ declared)
  refine ⟨_, ref_of_type compiles found, descent_wrap ?_⟩
  rw [descent_leaf classified leaf]
  exact descent_of_type compiles found

theorem below_record {fields : List (String × Strategy)}
    (opened : setup.policy.mayEnter name path = true)
    (isObject : setup.schema.objects.get? name = some object)
    (made : plainFields (setup.descent (path ++ [name])) object.fields.entries = .ok fields) :
    setup.below path name = .ok (some (.record fields)) := by
  rw [below_eq, if_pos opened, plainObject_eq isObject, made]
  rfl

theorem plainFields_cons {plain : TypeRef → Except GenerationError (Option Strategy)}
    {rest : List (String × FieldDef)} {strategy : Strategy} {others : List (String × Strategy)}
    (gives : plain entry.2.ref = .ok (some strategy)) (made : plainFields plain rest = .ok others) :
    plainFields plain (entry :: rest) = .ok ((entry.1, strategy) :: others) := by
  unfold plainFields
  rw [gives, made]
  rfl

theorem spelled_whole (compiles : setup.compile = .ok compiled)
    {entries : List (String × FieldDef)} {selections : List Selection}
    (spelled : setup.schema.Spelled entries selections) {path : List String} {owner : String}
    {object : ObjectType} (isObject : setup.schema.objects.get? owner = some object)
    (among : ∀ entry ∈ entries, entry ∈ object.fields.entries) (spellable : setup.Spellable owner)
    (fresh : ∀ entry ∈ entries, setup.Fresh path entry.2.ref.base) :
    ∃ fields, plainFields (setup.descent path) entries = .ok fields ∧
      compiled.allSelected owner (Compiled.fieldRef owner object) selections = .ok fields := by
  have sameSchema := compile_schema compiles
  have samePolicy := compile_policy compiles
  induction spelled generalizing path owner object with
  | nil => exact ⟨[], rfl, rfl⟩
  | @leaf rest selections field declared noObject others ih =>
    obtain ⟨here, later⟩ := List.forall_mem_cons.mp among
    have isField := Keyed.get?_eq_some_iff.mpr here
    have unmasked := spellable.field_ne isObject isField
    have drawable := (spellable.field isObject here).drawable _ .start
    obtain ⟨strategy, whole, gives⟩ :=
      leaf_whole compiles (.field isObject isField) noObject drawable path
    obtain ⟨fields, made, selected⟩ :=
      ih isObject later spellable fun entry member => fresh entry (List.mem_cons_of_mem _ member)
    refine ⟨_, plainFields_cons gives made, Compiled.allSelected_cons ?_ selected⟩
    rw [Compiled.selected_whole unmasked, Compiled.fieldRef_ok isField, Outcome.ok_bind, whole]
    rfl
  | @object type nested rest selections field declared isInner inside others ihInside ihOthers =>
    obtain ⟨here, later⟩ := List.forall_mem_cons.mp among
    have isField := Keyed.get?_eq_some_iff.mpr here
    have unmasked := spellable.field_ne isObject isField
    have freshHere := fresh _ List.mem_cons_self
    have below := spellable.field isObject here
    obtain ⟨kind, classified⟩ := classify_of_refers compiles (.field isObject isField)
    have sameKind := Schema.classify_object classified isInner
    subst sameKind
    obtain ⟨innerFields, innerMade, innerSelected⟩ :=
      ihInside isInner (fun _ member => member) below fun entry member =>
        freshHere.field below isInner member
    obtain ⟨fields, made, selected⟩ :=
      ihOthers isObject later spellable fun entry member =>
        fresh entry (List.mem_cons_of_mem _ member)
    have gives : setup.descent path (.named declared.ref.base) = .ok (some (.record innerFields)) :=
      (descent_named classified).trans (below_record freshHere.mayEnter isInner innerMade)
    refine ⟨_, plainFields_cons (descent_wrap gives) made, Compiled.allSelected_cons ?_ selected⟩
    rw [← sameSchema] at classified isInner
    rw [Compiled.selected_nested unmasked, Compiled.fieldRef_ok isField, Outcome.ok_bind,
      Compiled.through_object classified, Compiled.selectedObject_ok isInner innerSelected, samePolicy]
    rfl

theorem selectedObject_whole {selections : List Selection} {strategy : Strategy}
    (compiles : setup.compile = .ok compiled)
    (isObject : setup.schema.objects.get? name = some object) (spellable : setup.Spellable name)
    (spelled : setup.schema.Spelled object.fields.entries selections)
    (found : compiled.type name = .ok strategy) :
    compiled.selectedObject selections name = .ok strategy := by
  have gives := descent_of_type compiles found
  obtain ⟨kind, classified⟩ := classify_of_descent gives
  have sameKind := Schema.classify_object classified isObject
  subst sameKind
  obtain ⟨fields, made, selected⟩ :=
    spelled_whole compiles spelled isObject (fun _ member => member) spellable
      fun _ member => (setup.fresh_nil name).field spellable isObject member
  have record := below_record Policy.mayEnter_nil isObject made
  have same := ((descent_named classified).trans record).symm.trans gives
  cases same
  rw [← compile_schema compiles] at isObject
  exact Compiled.selectedObject_ok isObject selected

-- Neither budgets nor widths tell the complete selection of a query from the whole query.
theorem complete_selection_whole (compiles : setup.compile = .ok compiled) {query : String}
    {asked : QueryDef} (isQuery : setup.schema.queries.get? query = some asked)
    (isObject : setup.schema.objects.get? asked.ref.base = some object)
    (spellable : setup.Spellable asked.ref.base) :
    ∃ strategy, compiled.query query = .ok strategy ∧
      (∃ selections, setup.schema.Spelled object.fields.entries selections) ∧
      ∀ selections, setup.schema.Spelled object.fields.entries selections →
        compiled.project query selections = .ok (.envelope [(query, strategy)]) ∧
        (query ≠ typeNameField → compiled.projectOperation [⟨query, none, some selections⟩] =
          .ok (.envelope [(query, strategy)])) := by
  obtain ⟨kind, classified⟩ := classify_of_refers compiles (.query isQuery)
  have sameKind := Schema.classify_object classified isObject
  subst sameKind
  obtain ⟨strategy, found⟩ := type_known compiles classified (by simp)
  refine ⟨_, query_of_type compiles isQuery found,
    exists_spelled spellable (setup.fresh_nil _) isObject, fun selections spelled => ?_⟩
  have refers := queryRef_of_declared compiles isQuery
  have through : compiled.through (compiled.selectedObject selections) rootType query asked.ref =
      .ok (setup.policy.wrap asked.ref strategy) := by
    rw [← compile_schema compiles] at classified
    rw [Compiled.through_object classified,
      selectedObject_whole compiles isObject spellable spelled found, compile_policy compiles]
    rfl
  constructor
  · unfold Compiled.project
    rw [refers, Outcome.ok_bind]
    -- without a field there is nothing to select, and the query is taken whole
    by_cases nothing : selections.isEmpty = true
    · rw [if_pos nothing, ref_of_type compiles found]
      rfl
    · rw [if_neg nothing, through]
      rfl
  · intro other
    unfold Compiled.projectOperation Compiled.allSelected
    rw [Compiled.selected_nested other, refers, Outcome.ok_bind, through]
    rfl

-- A type met twice side by side, one without fields in lists without room, no budget at all.
def depot : Setup where
  schema := (((((({} : Schema).withEnum "Grade" ["new", "worn"]).withObject "cart"
      [("front", .named "axle"), ("rear", .nonNull (.named "axle")),
        ("load", .list (.list (.named "parcel"))), ("serial", .named "ID")]).withObject "axle"
      [("grade", .named "Grade"), ("wheels", .list (.nonNull (.named "wheel")))]).withObject "wheel"
      [("spokes", .list (.named "Int"))]).withObject "parcel" []).withQuery "carts"
      (.nonNull (.list (.named "cart")))
  policy := (((({} : Policy).withDefaultDepth 0).withWidth "parcel" 0).withWidth "Int" 0).withWidth
    "cart" 2

def depotSelection : List Selection :=
  let axle : List Selection :=
    [⟨"grade", none, none⟩, ⟨"wheels", none, some [⟨"spokes", none, none⟩]⟩]
  [⟨"front", none, some axle⟩, ⟨"rear", none, some axle⟩, ⟨"load", none, some []⟩,
    ⟨"serial", none, none⟩]

def depotRank : String → Nat
  | "cart" => 3
  | "axle" => 2
  | "wheel" => 1
  | "parcel" => 1
  | _ => 0

theorem depot_spellable : depot.Spellable "cart" where
  ends name _ := Schema.not_recurs_of_rank depotRank (by decide) name
  unmasked name object _ isObject := by
    have clear : ∀ entry ∈ depot.schema.objects.entries,
        typeNameField ∉ entry.2.fields.names := by decide
    exact clear _ (Keyed.get?_eq_some_iff.mp isObject)
  drawable name _ isScalar := by
    rcases isScalar with builtin | own
    · exact Scalars.has_of_builtin _ name builtin
    · cases own

theorem depot_complete_selection : ∃ compiled strategy, depot.compile = .ok compiled ∧
    depot.Spellable "cart" ∧ compiled.query "carts" = .ok strategy ∧
    compiled.project "carts" depotSelection = .ok (.envelope [("carts", strategy)]) := by
  have compiles : depot.compile = .ok _ := rfl
  have isQuery : depot.schema.queries.get? "carts" =
    some { ref := .nonNull (.list (.named "cart")) } := rfl
  obtain ⟨strategy, query, _, projected⟩ :=
    complete_selection_whole compiles isQuery rfl depot_spellable
  refine ⟨_, strategy, rfl, depot_spellable, query, (projected depotSelection ?_).1⟩
  have axle : depot.schema.Spelled
      [("grade", { ref := .named "Grade" }),
        ("wheels", { ref := .list (.nonNull (.named "wheel")) })]
      [⟨"grade", none, none⟩, ⟨"wheels", none, some [⟨"spokes", none, none⟩]⟩] :=
    .leaf rfl (.object rfl (.leaf rfl .nil) .nil)
  exact .object rfl axle (.object rfl axle (.object rfl .nil (.leaf rfl .nil)))

end Setup

end SchemaSampler
