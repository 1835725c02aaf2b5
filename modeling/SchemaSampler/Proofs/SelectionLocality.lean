import SchemaSampler.Generator
import SchemaSampler.Proofs.OperationOutcome

-- What an operation gives hangs on what it selects and on nothing else.

namespace SchemaSampler

-- The type name field means no reference, even where it is declared.
def Schema.target? (schema : Schema) : Scope × Selection → Option TypeRef
  | (scope, ⟨name, _, _⟩) => if name = typeNameField then none else schema.refIn? scope name

def Schema.Opens (schema : Schema) (site : Scope × Selection) : Prop :=
  ∀ ref ∈ schema.target? site, schema.objects.contains ref.base = true → site.2.nested.isSome = true

instance (schema : Schema) (site : Scope × Selection) : Decidable (schema.Opens site) :=
  inferInstanceAs (Decidable (∀ ref ∈ schema.target? site, _ → _))

namespace Setup

structure AgreeOnLeaf (first second : Setup) (name : String) : Prop where
  values : first.schema.classify name = .ok .enum →
    (first.schema.enums.get? name).map EnumType.values =
      (second.schema.enums.get? name).map EnumType.values
  strategy : first.schema.classify name = .ok .scalar →
    first.scalars.strategy name = second.scalars.strategy name

-- Fields and budgets of object types do not count.
structure AgreeAt (first second : Setup) (site : Scope × Selection) : Prop where
  meaning : first.schema.target? site = second.schema.target? site
  kind : ∀ ref ∈ first.schema.target? site,
    first.schema.classify ref.base = second.schema.classify ref.base
  width : ∀ ref ∈ first.schema.target? site,
    first.policy.maxWidth ref.base = second.policy.maxWidth ref.base
  leaf : site.2.nested = none → ∀ ref ∈ first.schema.target? site,
    first.AgreeOnLeaf second ref.base

variable {first second : Setup} {one other : Compiled}

theorem agreeAt_of_ref {site : Scope × Selection} {ref : TypeRef}
    (found : first.schema.target? site = some ref)
    (foundToo : second.schema.target? site = some ref)
    (kind : first.schema.classify ref.base = second.schema.classify ref.base)
    (width : first.policy.maxWidth ref.base = second.policy.maxWidth ref.base)
    (leaf : site.2.nested = none → first.AgreeOnLeaf second ref.base) :
    first.AgreeAt second site := by
  refine ⟨found.trans foundToo.symm, ?_, ?_, fun whole => ?_⟩
  all_goals rw [found]
  · simpa using kind
  · simpa using width
  · simpa using leaf whole

theorem agreeAt_of_none {site : Scope × Selection} (found : first.schema.target? site = none)
    (foundToo : second.schema.target? site = none) : first.AgreeAt second site := by
  refine ⟨found.trans foundToo.symm, ?_, ?_, fun _ => ?_⟩
  all_goals simp [found]

section

variable {scope : Scope} {ref : TypeRef} {name : String} {label : Option String}

theorem wrap_congr (same : first.policy.maxWidth ref.base = second.policy.maxWidth ref.base)
    (strategy : Strategy) : first.policy.wrap ref strategy = second.policy.wrap ref strategy := by
  induction ref with
  | named name => rfl
  | nonNull inner ih => exact ih same
  | list inner ih =>
    have width : first.policy.maxWidth inner.base = second.policy.maxWidth inner.base := same
    rw [Policy.wrap, Policy.wrap, ih same, width]

theorem leaf_congr {kind : TypeKind} (compiles : first.compile = .ok one)
    (compilesToo : second.compile = .ok other) (agree : first.AgreeOnLeaf second name)
    (classified : first.schema.classify name = .ok kind)
    (classifiedToo : second.schema.classify name = .ok kind) (isLeaf : kind ≠ .object) :
    one.type name = other.type name := by
  rw [type_eq_plainRoot compiles, type_eq_plainRoot compilesToo, plainRoot, plainRoot,
    descent_named classified, descent_named classifiedToo]
  cases kind with
  | enum =>
    obtain ⟨type, found⟩ := Schema.enum_of_classify classified
    have values := agree.values classified
    rw [found] at values
    obtain ⟨beside, foundToo, same⟩ := Option.map_eq_some_iff.mp values.symm
    rw [plainNamed, plainNamed, plainEnum_eq found, plainEnum_eq foundToo, same]
  | scalar => rw [plainNamed, plainNamed, agree.strategy classified]
  | object => exact absurd rfl isLeaf
  | query => rfl

theorem AgreeAt.refIn {nested : Option (List Selection)}
    (agree : first.AgreeAt second (scope, ⟨name, label, nested⟩)) (special : name ≠ typeNameField) :
    first.schema.refIn? scope name = second.schema.refIn? scope name := by
  simpa [Schema.target?, special] using agree.meaning

theorem mem_target {schema : Schema} (special : name ≠ typeNameField)
    (declared : schema.refIn? scope name = some ref) (label : Option String)
    (nested : Option (List Selection)) : ref ∈ schema.target? (scope, ⟨name, label, nested⟩) := by
  simp [Schema.target?, special, declared]

end

theorem selectedObject_congr {type : String} {selections : List Selection}
    (compiles : first.compile = .ok one) (compilesToo : second.compile = .ok other)
    (isObject : first.schema.classify type = .ok .object)
    (isObjectToo : second.schema.classify type = .ok .object)
    (same : ∀ {refOf refOf' : String → Except GenerationError TypeRef},
      (Scope.object type).Tells first.schema refOf →
      (Scope.object type).Tells second.schema refOf' →
        one.allSelected type refOf selections = other.allSelected type refOf' selections) :
    one.selectedObject selections type = other.selectedObject selections type := by
  obtain ⟨object, found⟩ := Schema.object_of_classify isObject
  obtain ⟨beside, foundToo⟩ := Schema.object_of_classify isObjectToo
  have inside := same (tells_object found) (tells_object foundToo)
  unfold Compiled.selectedObject
  rw [compile_schema compiles, compile_schema compilesToo, Schema.object_ok.mpr found,
    Schema.object_ok.mpr foundToo]
  exact congrArg (Strategy.record <$> ·) inside

mutual

theorem selected_congr (compiles : first.compile = .ok one)
    (compilesToo : second.compile = .ok other) : ∀ (selection : Selection) {scope : Scope}
    {refOf refOf' : String → Except GenerationError TypeRef},
    scope.Tells first.schema refOf → scope.Tells second.schema refOf' →
    (∀ site ∈ first.schema.sites scope selection, first.schema.Opens site) →
    (∀ site ∈ first.schema.sites scope selection, first.AgreeAt second site) →
      one.selected scope.typeName refOf selection = other.selected scope.typeName refOf' selection
  | ⟨name, label, none⟩, scope, refOf, refOf', tells, tellsToo, opens, agree => by
    have opens := opens _ (first.schema.mem_sites scope _)
    have agree := agree _ (first.schema.mem_sites scope _)
    by_cases special : name = typeNameField
    · simp [Compiled.selected, special]
    · rw [Compiled.selected_whole special, Compiled.selected_whole special, tells name,
        tellsToo name, ← agree.refIn special]
      cases declared : first.schema.refIn? scope name with
      | none => rfl
      | some ref =>
        have member := mem_target special declared label none
        obtain ⟨kind, classified⟩ := classify_of_refers compiles (Schema.refers_of_refIn declared)
        have isLeaf : kind ≠ .object := fun isObject =>
          absurd (opens ref member ((Schema.contains_object_iff classified).mpr isObject))
            Bool.false_ne_true
        have sameType := leaf_congr compiles compilesToo (agree.leaf rfl ref member) classified
          (agree.kind ref member ▸ classified) isLeaf
        have sameWrap := funext (wrap_congr (agree.width ref member))
        rw [Outcome.ok_bind, Outcome.ok_bind, one.ref_eq_wrap, other.ref_eq_wrap, sameType,
          compile_policy compiles, compile_policy compilesToo, sameWrap]
  | ⟨name, label, some selections⟩, scope, refOf, refOf', tells, tellsToo, opens, agree => by
    have here := agree _ (first.schema.mem_sites scope _)
    by_cases special : name = typeNameField
    · simp [Compiled.selected, special]
    · rw [Compiled.selected_nested special, Compiled.selected_nested special, tells name,
        tellsToo name, ← here.refIn special]
      cases declared : first.schema.refIn? scope name with
      | none => rfl
      | some ref =>
        have member := mem_target special declared label (some selections)
        obtain ⟨kind, classified⟩ := classify_of_refers compiles (Schema.refers_of_refIn declared)
        have classifiedToo := here.kind ref member ▸ classified
        rw [Outcome.ok_bind, Outcome.ok_bind]
        by_cases isObject : kind = .object
        · subst isObject
          rw [Schema.sites_nested special declared
            ((Schema.contains_object_iff classified).mpr rfl)] at opens agree
          have inside := selectedObject_congr compiles compilesToo classified classifiedToo
            fun tells tellsToo => allSelected_congr compiles compilesToo selections tells tellsToo
              (List.forall_mem_cons.mp opens).2 (List.forall_mem_cons.mp agree).2
          have sameWrap := funext (wrap_congr (here.width ref member))
          rw [Compiled.through_object (compile_schema compiles ▸ classified),
            Compiled.through_object (compile_schema compilesToo ▸ classifiedToo), inside,
            compile_policy compiles, compile_policy compilesToo, sameWrap]
        · rw [Compiled.through_leaf (compile_schema compiles ▸ classified) isObject,
            Compiled.through_leaf (compile_schema compilesToo ▸ classifiedToo) isObject]

theorem allSelected_congr (compiles : first.compile = .ok one)
    (compilesToo : second.compile = .ok other) : ∀ (selections : List Selection) {scope : Scope}
    {refOf refOf' : String → Except GenerationError TypeRef},
    scope.Tells first.schema refOf → scope.Tells second.schema refOf' →
    (∀ site ∈ first.schema.allSites scope selections, first.schema.Opens site) →
    (∀ site ∈ first.schema.allSites scope selections, first.AgreeAt second site) →
      one.allSelected scope.typeName refOf selections =
        other.allSelected scope.typeName refOf' selections
  | [], scope, refOf, refOf', tells, tellsToo, opens, agree => rfl
  | selection :: rest, scope, refOf, refOf', tells, tellsToo, opens, agree => by
    rw [Schema.allSites, List.forall_mem_append] at opens agree
    unfold Compiled.allSelected
    rw [selected_congr compiles compilesToo selection tells tellsToo opens.1 agree.1,
      allSelected_congr compiles compilesToo rest tells tellsToo opens.2 agree.2]

end

end Setup

theorem Generator.samples_sampler {σ : Type} [Random.Source σ] (generator : Generator σ)
    (strategy : Strategy) (count : Nat) :
    (generator.samples strategy count).1 = (generator.sampler.samples strategy count).1 := by
  induction count generalizing generator with
  | zero => rfl
  | succ count ih =>
    rcases drawn : generator.sampler.sample strategy with ⟨reason | value, next⟩
    · simp [Generator.samples, Sampler.samples, Generator.sample, drawn]
    · simp [Generator.samples, Sampler.samples, Generator.sample, drawn, ih]

namespace Setup

variable {first second : Setup} {one other : Compiled}

-- The same strategy or the same refusal, and the same values from the same source.
theorem operation_local (compiles : first.compile = .ok one)
    (compilesToo : second.compile = .ok other) {operation : List Selection}
    (opens : ∀ site ∈ first.schema.allSites .root operation, first.schema.Opens site)
    (agree : ∀ site ∈ first.schema.allSites .root operation, first.AgreeAt second site) :
    one.projectOperation operation = other.projectOperation operation ∧
      ∀ {σ : Type} [Random.Source σ] (sampler : Sampler σ) (text : String)
        (bindings : List (String × Json)) (count : Nat), Query.parse text = .ok operation →
          ((Generator.mk one sampler 0).queryResults text bindings count).map Prod.fst =
            ((Generator.mk other sampler 0).queryResults text bindings count).map Prod.fst := by
  have selected := allSelected_congr compiles compilesToo operation (tells_root compiles)
    (tells_root compilesToo) opens agree
  have projected : one.projectOperation operation = other.projectOperation operation :=
    congrArg (Strategy.envelope <$> ·) selected
  refine ⟨projected, fun sampler text bindings count parsed => ?_⟩
  have sameResult : one.queryResult text bindings = other.queryResult text bindings := by
    unfold Compiled.queryResult
    rw [parsed]
    exact projected
  unfold Generator.queryResults
  dsimp only
  rw [sameResult]
  cases other.queryResult text bindings with
  | error cause => rfl
  | ok strategy =>
    have drawn := Generator.samples_sampler ⟨one, sampler, 0⟩ strategy count
    have drawnToo := Generator.samples_sampler ⟨other, sampler, 0⟩ strategy count
    exact congrArg Except.ok (drawn.trans drawnToo.symm)

def cinema : Setup where
  schema := ((((({} : Schema).withEnum "Genre" ["drama", "farce"]).withScalar "Minutes").withObject
      "film" [("title", .named "String"), ("genre", .nonNull (.named "Genre")),
        ("length", .named "Minutes"), ("cast", .nonNull (.list (.named "actor")))]).withObject "actor"
      [("name", .named "String"), ("films", .list (.named "film"))]).withQuery "films"
      (.list (.nonNull (.named "film")))
  policy := ({} : Policy).withWidth "film" 2
  scalars := ({} : Scalars).withOverride "Minutes" (.intRange 60 180)

-- The cinema with other fields and types, in another order, under other budgets.
def festival : Setup where
  schema := ((((((({} : Schema).withQuery "juries" (.list (.named "jury"))).withQuery "films"
      (.list (.nonNull (.named "film")))).withObject "jury" [("films", .list (.named "film")),
        ("city", .named "City")]).withObject "actor" [("prizes", .named "Int"),
        ("films", .named "film"), ("name", .named "String")]).withObject "film"
      [("cast", .nonNull (.list (.named "actor"))), ("genre", .nonNull (.named "Genre")),
        ("length", .named "String"), ("jury", .named "jury"), ("title", .named "String")]).withEnum
      "City" ["Cannes"]).withEnum "Genre" ["drama", "farce"]
  policy := ((({} : Policy).withDefaultDepth 0).withDepth "film" 3).withWidth "film" 2

def credits : Selection := ⟨"cast", none, some [⟨"name", some "who", none⟩]⟩

def shown : Selection :=
  ⟨"films", some "shown", some [⟨"__typename", none, none⟩, ⟨"genre", none, none⟩, credits]⟩

theorem programme_local : ∃ one other, cinema.compile = .ok one ∧ festival.compile = .ok other ∧
    (∀ site ∈ cinema.schema.allSites .root [shown], cinema.schema.Opens site) ∧
    (∀ site ∈ cinema.schema.allSites .root [shown], cinema.AgreeAt festival site) ∧
    one.projectOperation [shown] = other.projectOperation [shown] := by
  have sites : cinema.schema.allSites .root [shown] =
      [(.root, shown), (.object "film", ⟨"__typename", none, none⟩),
        (.object "film", ⟨"genre", none, none⟩), (.object "film", credits),
        (.object "actor", ⟨"name", some "who", none⟩)] := rfl
  have opens : ∀ site ∈ cinema.schema.allSites .root [shown], cinema.schema.Opens site := by decide
  have agree : ∀ site ∈ cinema.schema.allSites .root [shown], cinema.AgreeAt festival site := by
    rw [sites]
    simp only [List.forall_mem_cons]
    refine ⟨?_, ?_, ?_, ?_, ?_, by simp⟩
    · refine agreeAt_of_ref rfl rfl rfl rfl fun whole => ?_
      cases whole
    · exact agreeAt_of_none rfl rfl
    · refine agreeAt_of_ref rfl rfl rfl rfl fun _ => ⟨fun _ => rfl, fun isScalar => ?_⟩
      cases isScalar
    · refine agreeAt_of_ref rfl rfl rfl rfl fun whole => ?_
      cases whole
    · refine agreeAt_of_ref rfl rfl rfl rfl fun _ => ⟨fun isEnum => ?_, fun _ => rfl⟩
      cases isEnum
  have succeeds : cinema.compile.isOk = true ∧ festival.compile.isOk = true := by
    decide +kernel
  obtain ⟨one, compiles⟩ := Outcome.runs_of_isOk succeeds.1
  obtain ⟨other, compilesToo⟩ := Outcome.runs_of_isOk succeeds.2
  exact ⟨one, other, compiles, compilesToo, opens, agree,
    (operation_local compiles compilesToo opens agree).1⟩

end Setup

end SchemaSampler
