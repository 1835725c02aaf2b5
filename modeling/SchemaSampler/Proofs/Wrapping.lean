import SchemaSampler.Projection
import SchemaSampler.Proofs.Locality
import SchemaSampler.Proofs.Walk

-- Following references from the empty path, looking names up in the tables, and selecting
-- through references all wrap alike.

namespace SchemaSampler

def Policy.wrap (policy : Policy) : TypeRef → Strategy → Strategy
  | .named _, strategy => strategy
  | .nonNull inner, strategy => policy.wrap inner strategy
  | .list inner, strategy => .listOf (policy.wrap inner strategy) (policy.maxWidth inner.base)

namespace Compiled

variable {compiled : Compiled} {ref : TypeRef} {parent field : String}

theorem wrap_list (compiled : Compiled) (inner : TypeRef)
    (outcome : Except GenerationError Strategy) :
    (compiled.policy.wrap inner <$> outcome >>= fun element =>
      pure (compiled.list element inner)) = compiled.policy.wrap (.list inner) <$> outcome := by
  cases outcome <;> rfl

theorem ref_eq_wrap (compiled : Compiled) (ref : TypeRef) :
    compiled.ref ref = compiled.policy.wrap ref <$> compiled.type ref.base := by
  induction ref with
  | named name => exact (id_map _).symm
  | nonNull inner ih => exact ih
  | list inner ih =>
    unfold Compiled.ref
    rw [ih]
    exact compiled.wrap_list inner _

theorem through_object {object : String → Except GenerationError Strategy}
    (isObject : compiled.schema.classify ref.base = .ok .object) :
    compiled.through object parent field ref = compiled.policy.wrap ref <$> object ref.base := by
  induction ref with
  | named name =>
    have isObject : compiled.schema.classify name = .ok .object := isObject
    unfold through
    rw [isObject]
    exact (id_map _).symm
  | nonNull inner ih => exact ih isObject
  | list inner ih =>
    unfold through
    rw [ih isObject]
    exact compiled.wrap_list inner _

theorem through_leaf {object : String → Except GenerationError Strategy} {kind : TypeKind}
    (classified : compiled.schema.classify ref.base = .ok kind) (leaf : kind ≠ .object) :
    compiled.through object parent field ref = .error (.selectionOnLeaf parent field) := by
  induction ref with
  | named name =>
    have classified : compiled.schema.classify name = .ok kind := classified
    unfold through
    rw [classified]
    cases kind with
    | object => exact absurd rfl leaf
    | enum => rfl
    | scalar => rfl
    | query => rfl
  | nonNull inner ih => exact ih classified
  | list inner ih =>
    unfold through
    rw [ih classified]
    rfl

section

variable {refOf : String → Except GenerationError TypeRef} {name : String}
  {selections rest : List Selection}

theorem selected_whole (other : name ≠ typeNameField) (label : Option String) :
    compiled.selected parent refOf ⟨name, label, none⟩ =
      refOf name >>= fun ref => (label.getD name, ·) <$> compiled.ref ref := by
  unfold selected
  rw [if_neg other]
  refine bind_congr fun ref => ?_
  exact (map_eq_pure_bind _ _).symm

theorem selected_nested (other : name ≠ typeNameField) (label : Option String) :
    compiled.selected parent refOf ⟨name, label, some selections⟩ =
      refOf name >>= fun ref => (label.getD name, ·) <$>
        compiled.through (compiled.selectedObject selections) parent name ref := by
  unfold selected
  rw [if_neg other]
  refine bind_congr fun ref => ?_
  exact (map_eq_pure_bind _ _).symm

theorem allSelected_cons {selection : Selection} {first : String × Strategy}
    {others : List (String × Strategy)}
    (one : compiled.selected parent refOf selection = .ok first)
    (later : compiled.allSelected parent refOf rest = .ok others) :
    compiled.allSelected parent refOf (selection :: rest) = .ok (first :: others) := by
  unfold allSelected
  rw [one, later]
  rfl

theorem selectedObject_ok {object : ObjectType} {fields : List (String × Strategy)}
    (isObject : compiled.schema.objects.get? name = some object)
    (made : compiled.allSelected name (fieldRef name object) selections = .ok fields) :
    compiled.selectedObject selections name = .ok (.record fields) := by
  unfold selectedObject
  rw [Schema.object_ok.mpr isObject]
  exact Outcome.bind_ok.mpr ⟨object, rfl, Outcome.bind_ok.mpr ⟨fields, made, rfl⟩⟩

theorem fieldRef_ok {object : ObjectType} {declared : FieldDef}
    (isField : object.fields.get? field = some declared) :
    fieldRef name object field = .ok declared.ref := by
  rw [fieldRef, isField]

end

end Compiled

namespace Setup

variable {setup : Setup} {compiled : Compiled} {path : List String} {ref : TypeRef}
  {strategy : Strategy}

-- A list without room is not looked into by the descent, and is empty in the wrapping.
theorem descent_wrap (gives : setup.descent path (.named ref.base) = .ok (some strategy)) :
    setup.descent path ref = .ok (some (setup.policy.wrap ref strategy)) := by
  induction ref with
  | named name => exact gives
  | nonNull inner ih => exact ih gives
  | list inner ih =>
    have within := ih gives
    obtain ⟨kind, classified⟩ := classify_of_descent within
    change setup.plainRef (setup.below path) (.list inner) = _
    unfold plainRef
    dsimp only
    split
    · rename_i shut
      rw [Policy.wrap, Strategy.listOf, if_pos shut]
      exact Outcome.bind_ok.mpr ⟨kind, Outcome.mapError_ok.mpr classified, rfl⟩
    · exact Outcome.bind_ok.mpr ⟨_, within, rfl⟩

theorem type_known {name : String} {kind : TypeKind} (compiles : setup.compile = .ok compiled)
    (classified : setup.schema.classify name = .ok kind)
    (drawable : kind = .scalar → setup.scalars.has name = true) :
    ∃ strategy, compiled.type name = .ok strategy := by
  have declared := (Schema.classify_ok_iff.mp classified).1
  have there : ∃ strategy, compiled.types.get? name = some strategy := by
    cases kind with
    | enum => exact compile_contains compiles (.inl declared)
    | object => exact compile_contains compiles (.inr (.inl declared))
    | scalar =>
      have listed : name ∈ setup.schema.names .scalar := List.mem_append.mpr declared
      exact compile_contains compiles (.inr (.inr ⟨listed, drawable rfl⟩))
    | query => cases declared
  obtain ⟨strategy, found⟩ := there
  exact ⟨strategy, by rw [Compiled.type, found]⟩

theorem ref_of_type (compiles : setup.compile = .ok compiled)
    (found : compiled.type ref.base = .ok strategy) :
    compiled.ref ref = .ok (setup.policy.wrap ref strategy) := by
  rw [compiled.ref_eq_wrap, found, compile_policy compiles]
  rfl

theorem run_ref (ref : TypeRef) (earlier : List TypeRef) :
    ((setup.ref (setup.enter setup.room []) ref).run.run (setup.after earlier)).1 =
      setup.descent [] ref := by
  have follows := follows_ref (fun name isObject =>
    follows_enter (Nat.le_of_eq setup.left_nil) isObject) ref
  exact (follows _ (setup.sound_after earlier)).1

theorem query_of_type {query : String} {declared : QueryDef}
    (compiles : setup.compile = .ok compiled)
    (isQuery : setup.schema.queries.get? query = some declared)
    (found : compiled.type declared.ref.base = .ok strategy) :
    compiled.query query = .ok (setup.policy.wrap declared.ref strategy) := by
  rw [compile_query compiles isQuery, plainRoot, descent_wrap (descent_of_type compiles found)]
  rfl

theorem queryRef_of_declared {query : String} {declared : QueryDef}
    (compiles : setup.compile = .ok compiled)
    (isQuery : setup.schema.queries.get? query = some declared) :
    compiled.queryRef query = .ok declared.ref := by
  rw [Compiled.queryRef, Schema.query, compile_schema compiles, isQuery]
  rfl

-- A selection named as the type name field never means a query.
theorem ref_eq_followed (compiles : setup.compile = .ok compiled) :
    (∀ ref, compiled.types.contains ref.base = true →
      ∃ strategy, compiled.ref ref = .ok strategy ∧ ∀ earlier,
        ((setup.ref (setup.enter setup.room []) ref).run.run (setup.after earlier)).1 =
          .ok (some strategy)) ∧
    ∀ query declared, setup.schema.queries.get? query = some declared →
      compiled.types.contains declared.ref.base = true →
        ∃ strategy, compiled.query query = .ok strategy ∧
          compiled.ref declared.ref = .ok strategy ∧
          (query ≠ typeNameField → ∀ label,
            compiled.projectOperation [⟨query, label, none⟩] =
              .ok (.envelope [(label.getD query, strategy)])) := by
  have known : ∀ name, compiled.types.contains name = true →
      ∃ strategy, compiled.type name = .ok strategy := by
    intro name contained
    obtain ⟨strategy, there⟩ := Option.isSome_iff_exists.mp contained
    exact ⟨strategy, by rw [Compiled.type, there]⟩
  constructor
  · intro ref contained
    obtain ⟨strategy, found⟩ := known _ contained
    refine ⟨_, ref_of_type compiles found, fun earlier => ?_⟩
    rw [run_ref, descent_wrap (descent_of_type compiles found)]
  · intro query declared isQuery contained
    obtain ⟨strategy, found⟩ := known _ contained
    have whole := ref_of_type compiles found
    refine ⟨_, query_of_type compiles isQuery found, whole, fun other label => ?_⟩
    unfold Compiled.projectOperation Compiled.allSelected
    rw [Compiled.selected_whole other, queryRef_of_declared compiles isQuery, Outcome.ok_bind, whole]
    rfl

def roster : Setup where
  schema := (((({} : Schema).withEnum "Rank" ["mate", "cook"]).withObject "crew"
      [("rank", .named "Rank"), ("shifts", .list (.list (.named "crew")))]).withQuery "crews"
      (.nonNull (.list (.list (.named "crew"))))).withQuery "ranks" (.list (.named "Rank"))
  policy := ((({} : Policy).withDepth "crew" 0).withWidth "crew" 3).withWidth "Rank" 0

theorem roster_ref_followed : ∃ compiled strategy, roster.compile = .ok compiled ∧
    compiled.types.contains "crew" = true ∧ compiled.query "crews" = .ok strategy ∧
    compiled.ref (.nonNull (.list (.list (.named "crew")))) = .ok strategy ∧
    compiled.projectOperation [⟨"crews", some "all", none⟩] = .ok (.envelope [("all", strategy)]) := by
  have compiles : roster.compile = .ok _ := rfl
  obtain ⟨strategy, query, ref, operation⟩ := (ref_eq_followed compiles).2 "crews" _ rfl rfl
  exact ⟨_, strategy, rfl, rfl, query, ref, operation (by decide) (some "all")⟩

-- A query with the name of the type name field: it compiles, and no selection means it.
def maskedQuery : Setup where
  schema := ({} : Schema).withQuery typeNameField (.named "Int")

theorem masked_query_not_selected : ∃ compiled strategy, maskedQuery.compile = .ok compiled ∧
    maskedQuery.schema.queries.get? "__typename" = some { ref := .named "Int" } ∧
    compiled.types.contains "Int" = true ∧ compiled.query "__typename" = .ok strategy ∧
    compiled.projectOperation [⟨"__typename", none, none⟩] ≠
      .ok (.envelope [("__typename", strategy)]) := by
  refine ⟨_, _, rfl, rfl, rfl, rfl, ?_⟩
  intro same
  cases same

end Setup

end SchemaSampler
