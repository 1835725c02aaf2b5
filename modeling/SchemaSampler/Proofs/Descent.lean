import SchemaSampler.Compile
import SchemaSampler.Proofs.Outcome
import SchemaSampler.Proofs.Registry

-- Nothing is remembered on the way. The descent ends because every object type that is entered
-- uses up a part of what the budgets leave.

namespace SchemaSampler

namespace Policy

variable {policy : Policy} {name entered : String} {path : List String}

theorem allowed_pos : 0 < policy.allowed name := by
  have wide : 1 ≤ Word.count 32 - 1 := by decide
  unfold allowed
  omega

theorem mayEnter_iff : policy.mayEnter name path = true ↔ path.count name < policy.allowed name := by
  rw [mayEnter, decide_eq_true_iff]
  exact Nat.sub_pos_iff_lt

theorem mayEnter_nil : policy.mayEnter name [] = true := by
  rw [mayEnter_iff, List.count_nil]
  exact allowed_pos

theorem remaining_congr {first second : List String} (same : first.count name = second.count name) :
    policy.remaining name first = policy.remaining name second := by
  rw [remaining, remaining, same]

theorem mayEnter_congr {first second : List String} (same : first.count name = second.count name) :
    policy.mayEnter name first = policy.mayEnter name second := by
  rw [mayEnter, mayEnter, remaining_congr same]

theorem remaining_enter_le :
    policy.remaining name (path ++ [entered]) ≤ policy.remaining name path := by
  simp only [remaining, List.count_append]
  omega

theorem remaining_enter_lt (opened : policy.mayEnter name path = true) :
    policy.remaining name (path ++ [name]) < policy.remaining name path := by
  have room := mayEnter_iff.mp opened
  simp only [remaining, List.count_append, List.count_singleton_self]
  omega

theorem count_enter_le (within : ∀ asked, path.count asked ≤ policy.allowed asked)
    (opened : policy.mayEnter entered path = true) (asked : String) :
    (path ++ [entered]).count asked ≤ policy.allowed asked := by
  have room := mayEnter_iff.mp opened
  have bound := within asked
  rw [List.count_append, List.count_singleton]
  by_cases same : entered = asked
  · subst same
    rw [beq_self_eq_true, if_pos rfl]
    exact room
  · rw [beq_false_of_ne same]
    exact bound

def left (policy : Policy) (names : List String) (path : List String) : Nat :=
  names.foldr (fun name others => policy.remaining name path + others) 0

theorem left_enter_le (names : List String) :
    policy.left names (path ++ [entered]) ≤ policy.left names path := by
  induction names with
  | nil => exact Nat.le_refl _
  | cons name rest ih => exact Nat.add_le_add remaining_enter_le ih

theorem left_enter_lt {names : List String} (member : entered ∈ names)
    (opened : policy.mayEnter entered path = true) :
    policy.left names (path ++ [entered]) < policy.left names path := by
  induction names with
  | nil => cases member
  | cons name rest ih =>
    rcases List.mem_cons.mp member with rfl | later
    · exact Nat.add_lt_add_of_lt_of_le (remaining_enter_lt opened) (left_enter_le rest)
    · exact Nat.add_lt_add_of_le_of_lt remaining_enter_le (ih later)

theorem remaining_le_left {names : List String} (member : name ∈ names) :
    policy.remaining name path ≤ policy.left names path := by
  induction names with
  | nil => cases member
  | cons first rest ih =>
    rcases List.mem_cons.mp member with rfl | later
    · exact Nat.le_add_right _ _
    · exact Nat.le_trans (ih later) (Nat.le_add_left _ _)

end Policy

namespace Setup

def left (setup : Setup) (path : List String) : Nat :=
  setup.policy.left setup.schema.objects.names path

theorem left_nil (setup : Setup) : setup.left [] = setup.room := by
  simp only [left, Policy.left, room, Policy.remaining, List.count_nil, Nat.sub_zero]

theorem left_enter_lt {setup : Setup} {path : List String} {name : String} {type : ObjectType}
    (found : setup.schema.object name = .ok type)
    (opened : setup.policy.mayEnter name path = true) :
    setup.left (path ++ [name]) < setup.left path :=
  Policy.left_enter_lt (Keyed.mem_names_of_get? (Schema.object_ok.mp found)) opened

theorem shut_of_left {setup : Setup} {path : List String} {name : String}
    (spent : setup.left path = 0) (isObject : setup.schema.classify name = .ok .object) :
    ¬ setup.policy.mayEnter name path = true := by
  obtain ⟨type, found⟩ := Schema.object_of_classify isObject
  have within : setup.policy.remaining name path ≤ setup.left path :=
    Policy.remaining_le_left (Keyed.mem_names_of_get? found)
  rw [Policy.mayEnter, decide_eq_true_iff]
  omega

def plainEnum (setup : Setup) (name : String) : Except GenerationError Strategy := do
  let type ← Compiled.ofSchema (setup.schema.enum name)
  return if type.values.isEmpty then .constant .null else .oneOf (type.values.map .str)

theorem plainEnum_eq {setup : Setup} {name : String} {type : EnumType}
    (found : setup.schema.enums.get? name = some type) :
    setup.plainEnum name =
      .ok (if type.values.isEmpty then .constant .null else .oneOf (type.values.map .str)) := by
  unfold plainEnum
  rw [Schema.enum_ok.mpr found]
  rfl

def plainNamed (setup : Setup) (enter : String → Except GenerationError (Option Strategy))
    (name : String) : TypeKind → Except GenerationError (Option Strategy)
  | .enum => some <$> setup.plainEnum name
  | .scalar => some <$> setup.scalars.strategy name
  | .object => enter name
  | .query => .error (.schema (.unknownRef name))

def plainRef (setup : Setup) (enter : String → Except GenerationError (Option Strategy)) :
    TypeRef → Except GenerationError (Option Strategy)
  | .nonNull inner => setup.plainRef enter inner
  | .list inner =>
    let longest := setup.policy.maxWidth inner.base
    if longest = some 0 then do
      let _ ← Compiled.ofSchema (setup.schema.classifyRef inner)
      return some .emptyList
    else do
      match ← setup.plainRef enter inner with
      | some element => return some (.listOf element longest)
      | none => return some .emptyList
  | .named name => do setup.plainNamed enter name (← Compiled.ofSchema (setup.schema.classify name))

theorem plainRef_named {setup : Setup} {enter : String → Except GenerationError (Option Strategy)}
    {name : String} {kind : TypeKind} (classified : setup.schema.classify name = .ok kind) :
    setup.plainRef enter (.named name) = setup.plainNamed enter name kind := by
  rw [plainRef, classified]
  rfl

def plainFields (ref : TypeRef → Except GenerationError (Option Strategy)) :
    List (String × FieldDef) → Except GenerationError (List (String × Strategy))
  | [] => return []
  | (name, field) :: rest => do
    match ← ref field.ref with
    | some strategy => return (name, strategy) :: (← plainFields ref rest)
    | none => plainFields ref rest

def below (setup : Setup) (path : List String) (name : String) :
    Except GenerationError (Option Strategy) :=
  if _opened : setup.policy.mayEnter name path = true then
    match _found : setup.schema.object name with
    | .error cause => .error (.schema cause)
    | .ok type => do
      let fields ← plainFields (setup.plainRef fun inner => setup.below (path ++ [name]) inner)
        type.fields.entries
      return some (.record fields)
  else return none
termination_by setup.left path
decreasing_by exact left_enter_lt _found _opened

def descent (setup : Setup) (path : List String) :
    TypeRef → Except GenerationError (Option Strategy) :=
  setup.plainRef (setup.below path)

theorem descent_named {setup : Setup} {path : List String} {name : String} {kind : TypeKind}
    (classified : setup.schema.classify name = .ok kind) :
    setup.descent path (.named name) = setup.plainNamed (setup.below path) name kind :=
  plainRef_named classified

theorem classify_of_descent {setup : Setup} {path : List String} {ref : TypeRef}
    {given : Option Strategy} (gives : setup.descent path ref = .ok given) :
    ∃ kind, setup.schema.classify ref.base = .ok kind := by
  induction ref generalizing given with
  | nonNull inner ih => exact ih gives
  | list inner ih =>
    unfold descent plainRef at gives
    dsimp only at gives
    split at gives
    · obtain ⟨kind, classified, _⟩ := Outcome.bind_ok.mp gives
      exact ⟨kind, Outcome.mapError_ok.mp classified⟩
    · obtain ⟨element, within, _⟩ := Outcome.bind_ok.mp gives
      exact ih within
  | named name =>
    obtain ⟨kind, classified, _⟩ := Outcome.bind_ok.mp gives
    exact ⟨kind, Outcome.mapError_ok.mp classified⟩

def plainObject (setup : Setup) (path : List String) (name : String) :
    Except GenerationError Strategy := do
  let type ← Compiled.ofSchema (setup.schema.object name)
  return .record (← plainFields (setup.descent (path ++ [name])) type.fields.entries)

theorem plainObject_eq {setup : Setup} {path : List String} {name : String} {type : ObjectType}
    (found : setup.schema.objects.get? name = some type) :
    setup.plainObject path name = (do
      return .record (← plainFields (setup.descent (path ++ [name])) type.fields.entries)) := by
  unfold plainObject
  rw [Schema.object_ok.mpr found]
  rfl

theorem below_eq (setup : Setup) (path : List String) (name : String) :
    setup.below path name =
      if setup.policy.mayEnter name path then some <$> setup.plainObject path name
      else return none := by
  rw [below]
  split
  · unfold plainObject
    split
    · rename_i cause missing
      rw [missing]
      rfl
    · rename_i type found
      rw [found]
      change (plainFields (setup.descent (path ++ [name])) type.fields.entries >>= fun fields =>
          pure (some (Strategy.record fields))) =
        some <$> (plainFields (setup.descent (path ++ [name])) type.fields.entries >>= fun fields =>
          pure (Strategy.record fields))
      cases plainFields (setup.descent (path ++ [name])) type.fields.entries <;> rfl
  · rfl

-- What an object type gives hangs on the path through its counts alone.
theorem below_congr {setup : Setup} {first second : List String}
    (same : ∀ name, first.count name = second.count name) :
    setup.below first = setup.below second := by
  funext name
  rw [below_eq, below_eq, Policy.mayEnter_congr (same name)]
  by_cases opened : setup.policy.mayEnter name second = true
  · rw [if_pos opened, if_pos opened]
    unfold plainObject
    cases found : setup.schema.object name with
    | error cause => rfl
    | ok type =>
      have deeper : setup.below (first ++ [name]) = setup.below (second ++ [name]) :=
        below_congr fun asked => by rw [List.count_append, List.count_append, same asked]
      simp only [descent, deeper]
  · rw [if_neg opened, if_neg opened]
termination_by setup.left first
decreasing_by exact left_enter_lt found (Policy.mayEnter_congr (same name) ▸ opened)

def plainRoot (setup : Setup) (ref : TypeRef) : Except GenerationError Strategy := do
  return (← setup.descent [] ref).getD (.constant .null)

def plainType (setup : Setup) (types : Keyed Strategy) (name : String) :
    Except GenerationError (Keyed Strategy) := do
  return types.insert name (← setup.plainRoot (.named name))

def plainQuery (setup : Setup) (queries : Keyed Strategy) (entry : String × QueryDef) :
    Except GenerationError (Keyed Strategy) := do
  return queries.insert entry.1 (← setup.plainRoot entry.2.ref)

def plainScalar (setup : Setup) (types : Keyed Strategy) (name : String) :
    Except GenerationError (Keyed Strategy) :=
  if setup.scalars.has name then setup.plainType types name else return types

def plainCompile (setup : Setup) : Except GenerationError Compiled := do
  Compiled.ofSchema setup.schema.validate
  let types ← (setup.schema.names .enum).foldlM setup.plainType ∅
  let types ← (setup.schema.names .object).foldlM setup.plainType types
  let queries ← setup.schema.queries.entries.foldlM setup.plainQuery ∅
  let types ← (setup.schema.names .scalar).foldlM setup.plainScalar types
  return { schema := setup.schema, policy := setup.policy, types, queries }

end Setup

end SchemaSampler
