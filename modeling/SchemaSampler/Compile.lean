import SchemaSampler.Compiled
import SchemaSampler.Event
import SchemaSampler.Memo
import SchemaSampler.Scalars

-- Where an object type may not be entered again, a list becomes the empty list and any other
-- field is left out.

namespace SchemaSampler

structure Setup where
  schema : Schema
  policy : Policy := {}
  scalars : Scalars := {}

structure CompileState where
  leaves : Keyed Strategy := ∅
  memo : Memo := {}
  memoHits : Nat := 0
  -- the latest event first
  events : List Event := []

-- A step that fails keeps what it told.
abbrev Compile (α : Type) := ExceptT GenerationError (StateM CompileState) α

namespace Compile

def attempt (result : Except GenerationError α) : Compile α := liftExcept result

def ofSchema (result : Except SchemaError α) : Compile α := attempt (result.mapError .schema)

def tell (event : Event) : Compile Unit :=
  modify fun state => { state with events := event :: state.events }

def leaf (name : String) (make : Compile Strategy) : Compile Strategy := do
  match (← get).leaves.get? name with
  | some strategy => return strategy
  | none =>
    let strategy ← make
    modify fun state => { state with leaves := state.leaves.insert name strategy }
    return strategy

def object (key : MemoKey) (depth : Nat) (make : Compile Strategy) : Compile Strategy := do
  match (← get).memo.get? key with
  | some strategy =>
    modify fun state => { state with memoHits := state.memoHits + 1 }
    tell (.memoHit key.type depth)
    return strategy
  | none =>
    let strategy ← make
    modify fun state => { state with memo := state.memo.insert key strategy }
    return strategy

def fields (type : String) (ref : TypeRef → Compile (Option Strategy)) :
    List (String × FieldDef) → Compile (List (String × Strategy))
  | [] => return []
  | (name, field) :: rest => do
    match ← ref field.ref with
    | some strategy =>
      let others ← fields type ref rest
      return (name, strategy) :: others
    | none =>
      tell (.fieldOmitted type name)
      fields type ref rest

end Compile

namespace Setup

open Compile

-- An enum without values gives null.
def enum (setup : Setup) (name : String) : Compile Strategy :=
  leaf name do
    let type ← ofSchema (setup.schema.enum name)
    if type.values.isEmpty then
      tell (.emptyEnum name)
      return .constant .null
    else return .oneOf (type.values.map .str)

def scalar (setup : Setup) (name : String) : Compile Strategy :=
  leaf name (attempt (setup.scalars.strategy name))

-- A list that cannot hold anything is not looked into, though its name has to be a type.
def ref (setup : Setup) (enter : String → Compile (Option Strategy)) :
    TypeRef → Compile (Option Strategy)
  | .nonNull inner => setup.ref enter inner
  | .list inner =>
    let longest := setup.policy.maxWidth inner.base
    if longest = some 0 then do
      let _ ← ofSchema (setup.schema.classifyRef inner)
      return some .emptyList
    else do
      match ← setup.ref enter inner with
      | some element => return some (.listOf element longest)
      | none => return some .emptyList
  | .named name => do
    match ← ofSchema (setup.schema.classify name) with
    | .enum => some <$> setup.enum name
    | .scalar => some <$> setup.scalar name
    | .object => enter name
    | .query => throw (.schema (.unknownRef name))

def spent (path : List String) (name : String) : Compile (Option Strategy) := do
  tell (.budgetSpent name path.length)
  return none

-- `room` is at least the number of entries that all budgets together still allow.
def enter (setup : Setup) : Nat → List String → String → Compile (Option Strategy)
  | 0, path, name => spent path name
  | room + 1, path, name =>
    if setup.policy.mayEnter name path then
      some <$> object ⟨name, .ofPath path⟩ path.length do
        let type ← ofSchema (setup.schema.object name)
        let fields ← fields name (setup.ref (setup.enter room (path ++ [name]))) type.fields.entries
        tell (.objectCompiled name path.length fields.length)
        return .record fields
    else spent path name

def room (setup : Setup) : Nat :=
  setup.schema.objects.names.foldr (fun name others => setup.policy.allowed name + others) 0

def root (setup : Setup) (ref : TypeRef) : Compile Strategy := do
  return (← setup.ref (setup.enter setup.room []) ref).getD (.constant .null)

def unusedLimits (setup : Setup) : List Event :=
  (setup.policy.depth.names.filter fun name => !setup.schema.objects.contains name).map
      .depthWithoutObject ++
    (setup.policy.width.names.filter fun name => !(setup.schema.classify name).isOk).map
      .widthWithoutType

def addType (setup : Setup) (types : Keyed Strategy) (name : String) :
    Compile (Keyed Strategy) := do
  return types.insert name (← setup.root (.named name))

def addQuery (setup : Setup) (queries : Keyed Strategy) (entry : String × QueryDef) :
    Compile (Keyed Strategy) := do
  return queries.insert entry.1 (← setup.root entry.2.ref)

-- A custom scalar without a strategy is a fault only where something refers to it.
def addScalar (setup : Setup) (types : Keyed Strategy) (name : String) :
    Compile (Keyed Strategy) := do
  match (← get).leaves.get? name with
  | some strategy => return types.insert name strategy
  | none =>
    if setup.scalars.has name then setup.addType types name
    else
      tell (.scalarNotReached name)
      return types

def strategies (setup : Setup) : Compile Compiled := do
  ofSchema setup.schema.validate
  setup.unusedLimits.forM tell
  let types ← (setup.schema.names .enum).foldlM setup.addType ∅
  let types ← (setup.schema.names .object).foldlM setup.addType types
  let queries ← setup.schema.queries.entries.foldlM setup.addQuery ∅
  let types ← (setup.schema.names .scalar).foldlM setup.addScalar types
  let state ← get
  tell (.schemaCompiled types.size queries.size state.memo.size state.memoHits)
  return { schema := setup.schema, policy := setup.policy, types, queries }

def run (setup : Setup) : Except GenerationError Compiled × List Event :=
  let (outcome, state) := setup.strategies.run.run {}
  (outcome, state.events.reverse)

def compile (setup : Setup) : Except GenerationError Compiled := setup.run.1

end Setup

end SchemaSampler
