import SchemaSampler.Proofs.Tables

-- What a type compiles to hangs on the names that its fields lead to and on nothing else.

namespace SchemaSampler

inductive Schema.Reachable (schema : Schema) (type : String) : String → Prop where
  | start : Reachable schema type type
  | field (here : Reachable schema type owner) (isObject : schema.objects.get? owner = some found)
      (member : entry ∈ found.fields.entries) : Reachable schema type entry.2.ref.base

theorem Schema.Reachable.within {schema : Schema} {type name : String} {names : List String}
    (starts : type ∈ names)
    (closed : ∀ owner ∈ names, ∀ found ∈ schema.objects.get? owner,
      ∀ entry ∈ found.fields.entries, entry.2.ref.base ∈ names)
    (reached : schema.Reachable type name) : name ∈ names := by
  induction reached with
  | start => exact starts
  | field here isObject member ih => exact closed _ ih _ isObject _ member

def ObjectType.signature (type : ObjectType) : List (String × TypeRef) :=
  type.fields.entries.map fun entry => (entry.1, entry.2.ref)

namespace Setup

-- Only object types have a budget, and only scalars a strategy of their own.
structure AgreeOn (first second : Setup) (name : String) : Prop where
  kinds : first.schema.kinds name = second.schema.kinds name
  values : (first.schema.enums.get? name).map EnumType.values =
    (second.schema.enums.get? name).map EnumType.values
  fields : (first.schema.objects.get? name).map ObjectType.signature =
    (second.schema.objects.get? name).map ObjectType.signature
  strategy : first.schema.Declares name .scalar →
    first.scalars.strategy name = second.scalars.strategy name
  budget : first.schema.Declares name .object →
    first.policy.budget name = second.policy.budget name
  width : first.policy.maxWidth name = second.policy.maxWidth name

variable {first second : Setup} {name type : String} {path : List String} {ref : TypeRef}

theorem AgreeOn.classify (agree : first.AgreeOn second name) :
    first.schema.classify name = second.schema.classify name := by
  unfold Schema.classify
  rw [agree.kinds]

theorem AgreeOn.mayEnter (agree : first.AgreeOn second name)
    (isObject : first.schema.Declares name .object) :
    first.policy.mayEnter name path = second.policy.mayEnter name path := by
  unfold Policy.mayEnter Policy.remaining Policy.allowed
  rw [agree.budget isObject]

theorem AgreeOn.plainEnum (agree : first.AgreeOn second name)
    (isEnum : first.schema.classify name = .ok .enum) :
    first.plainEnum name = second.plainEnum name := by
  obtain ⟨one, found⟩ := Schema.enum_of_classify isEnum
  have values := agree.values
  rw [found] at values
  obtain ⟨other, foundToo, same⟩ := Option.map_eq_some_iff.mp values.symm
  rw [plainEnum_eq found, plainEnum_eq foundToo, same]

theorem AgreeOn.object {one : ObjectType} (agree : first.AgreeOn second name)
    (found : first.schema.objects.get? name = some one) :
    ∃ other, second.schema.objects.get? name = some other ∧ other.signature = one.signature := by
  have fields := agree.fields
  rw [found] at fields
  exact Option.map_eq_some_iff.mp fields.symm

theorem plainFields_congr {plain other : TypeRef → Except GenerationError (Option Strategy)}
    {entries others : List (String × FieldDef)}
    (same : others.map (fun entry => (entry.1, entry.2.ref)) =
      entries.map fun entry => (entry.1, entry.2.ref))
    (each : ∀ entry ∈ entries, plain entry.2.ref = other entry.2.ref) :
    plainFields plain entries = plainFields other others := by
  induction entries generalizing others with
  | nil =>
    rw [List.map_eq_nil_iff.mp same]
    rfl
  | cons entry rest ih =>
    obtain ⟨beside, more, rfl, here, later⟩ := List.map_eq_cons_iff.mp same
    obtain ⟨sameName, sameRef⟩ := Prod.mk.inj here
    have sameRest := ih later fun inner member => each inner (List.mem_cons_of_mem _ member)
    unfold plainFields
    rw [each entry (by simp), sameRest, sameName, sameRef]

theorem plainRef_congr {enter other : String → Except GenerationError (Option Strategy)}
    (agree : first.AgreeOn second ref.base)
    (objects : first.schema.classify ref.base = .ok .object → enter ref.base = other ref.base) :
    first.plainRef enter ref = second.plainRef other ref := by
  induction ref with
  | nonNull inner ih => exact ih agree objects
  | list inner ih =>
    have width : first.policy.maxWidth inner.base = second.policy.maxWidth inner.base := agree.width
    have classified : first.schema.classifyRef inner = second.schema.classifyRef inner :=
      agree.classify
    unfold plainRef
    rw [width, classified, ih agree objects]
  | named name =>
    have agree : first.AgreeOn second name := agree
    unfold plainRef
    rw [← agree.classify]
    cases classified : first.schema.classify name with
    | error cause => rfl
    | ok kind =>
      change first.plainNamed enter name kind = second.plainNamed other name kind
      have declared := (Schema.classify_ok_iff.mp classified).1
      cases kind with
      | enum => rw [plainNamed, plainNamed, agree.plainEnum classified]
      | scalar => rw [plainNamed, plainNamed, agree.strategy declared]
      | object => exact objects classified
      | query => rfl

theorem reachable_field {owner : String} {object : ObjectType} {field : String × FieldDef}
    {schema : Schema} (isObject : schema.objects.get? owner = some object)
    (member : field ∈ object.fields.entries) (reached : schema.Reachable field.2.ref.base name) :
    schema.Reachable owner name := by
  induction reached with
  | start => exact .field .start isObject member
  | field here isObject member ih => exact .field ih isObject member

theorem below_local {path : List String} {name : String}
    (agree : ∀ reached, first.schema.Reachable name reached → first.AgreeOn second reached)
    (isObject : first.schema.classify name = .ok .object) :
    first.below path name = second.below path name := by
  have here := agree name .start
  have declared := (Schema.classify_ok_iff.mp isObject).1
  obtain ⟨one, found⟩ := Schema.object_of_classify isObject
  obtain ⟨other, foundToo, same⟩ := here.object found
  rw [below_eq, below_eq, ← here.mayEnter declared]
  by_cases opened : first.policy.mayEnter name path = true
  · rw [if_pos opened, if_pos opened, plainObject_eq found, plainObject_eq foundToo]
    refine congrArg (fun fields => some <$> (fields >>= fun made => pure (Strategy.record made))) ?_
    refine plainFields_congr same fun entry member => ?_
    have deeper := fun reached there => agree reached (reachable_field found member there)
    exact plainRef_congr (deeper _ .start) fun innerIsObject => below_local deeper innerIsObject
  · rw [if_neg opened, if_neg opened]
termination_by first.left path
decreasing_by exact left_enter_lt (Schema.object_ok.mpr found) opened

theorem plainRoot_local
    (agree : ∀ reached, first.schema.Reachable type reached → first.AgreeOn second reached) :
    first.plainRoot (.named type) = second.plainRoot (.named type) := by
  have whole : first.descent [] (.named type) = second.descent [] (.named type) :=
    plainRef_congr (agree type .start) (below_local agree)
  unfold plainRoot
  rw [whole]

-- What is remembered once some roots have been compiled, up to the first that fails.
def after (setup : Setup) (roots : List TypeRef) : CompileState :=
  ((roots.forM fun ref => discard (setup.root ref)).run.run {}).2

theorem sound_after (setup : Setup) (roots : List TypeRef) : setup.Sound (setup.after roots) := by
  have follows : setup.Follows (roots.forM fun ref => discard (setup.root ref))
      (roots.forM fun ref => discard (setup.plainRoot ref)) := by
    induction roots with
    | nil => exact follows_pure ()
    | cons root rest ih =>
      exact follows_bind (follows_map _ (follows_root root)) fun _ _ => ih
  exact (follows {} setup.sound_start).2

-- The same strategy, or alike none, whatever was compiled before.
theorem type_local {one other : Compiled} (compiles : first.compile = .ok one)
    (compilesToo : second.compile = .ok other)
    (agree : ∀ name, first.schema.Reachable type name → first.AgreeOn second name) :
    one.type type = other.type type ∧
      ∀ earlier later,
        ((first.root (.named type)).run.run (first.after earlier)).1 =
          ((second.root (.named type)).run.run (second.after later)).1 := by
  have same := plainRoot_local agree
  constructor
  · rw [type_eq_plainRoot compiles, type_eq_plainRoot compilesToo, same]
  · intro earlier later
    obtain ⟨oneWay, _⟩ := follows_root (.named type) _ (first.sound_after earlier)
    obtain ⟨otherWay, _⟩ := follows_root (.named type) _ (second.sound_after later)
    rw [oneWay, otherWay, same]

def harbour : Setup where
  schema := ((({} : Schema).withEnum "State" ["idle", "moving"]).withObject "ship"
      [("state", .nonNull (.named "State")), ("escorts", .list (.named "ship")),
        ("home", .named "port")]).withObject "port"
      [("ships", .list (.named "ship")), ("berths", .named "Int")]
  policy := ({} : Policy).withDepth "ship" 0

-- The harbour in another order, with a type that leads to it and limits that mean nothing to it.
def crowdedHarbour : Setup where
  schema := (((((({} : Schema).withObject "port"
      [("ships", .list (.named "ship")), ("berths", .named "Int")]).withObject "crane"
      [("port", .named "port"), ("load", .named "Tons")]).withObject "ship"
      [("state", .nonNull (.named "State")), ("escorts", .list (.named "ship")),
        ("home", .named "port")]).withScalar "Tons").withEnum "State" ["idle", "moving"]).withQuery
      "cranes" (.list (.named "crane"))
  policy := (((({} : Policy).withDepth "crane" 7).withDepth "ship" 0).withDepth "State" 3).withWidth
    "crane" 0
  scalars := (({} : Scalars).withOverride "Tons" (.intRange 1 9)).withOverride "State" .bool

theorem harbour_type_local : ∃ one other, harbour.compile = .ok one ∧
    crowdedHarbour.compile = .ok other ∧
    (∀ name, harbour.schema.Reachable "ship" name → harbour.AgreeOn crowdedHarbour name) ∧
    one.type "ship" = other.type "ship" := by
  have agree : ∀ name, harbour.schema.Reachable "ship" name →
      harbour.AgreeOn crowdedHarbour name := by
    intro name reached
    have member : name ∈ ["ship", "State", "port", "Int"] := reached.within (by decide) (by decide)
    simp only [List.mem_cons, List.not_mem_nil, or_false] at member
    rcases member with rfl | rfl | rfl | rfl
    · exact ⟨rfl, rfl, rfl, fun isScalar => absurd isScalar (by decide), fun _ => rfl, rfl⟩
    · exact ⟨rfl, rfl, rfl, fun isScalar => absurd isScalar (by decide),
        fun isObject => absurd isObject (by decide), rfl⟩
    · exact ⟨rfl, rfl, rfl, fun isScalar => absurd isScalar (by decide), fun _ => rfl, rfl⟩
    · exact ⟨rfl, rfl, rfl, fun _ => rfl, fun _ => rfl, rfl⟩
  exact ⟨_, _, rfl, rfl, agree, (type_local rfl rfl agree).1⟩

end Setup

end SchemaSampler
