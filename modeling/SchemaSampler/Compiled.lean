import SchemaSampler.Policy
import SchemaSampler.Registry

namespace SchemaSampler

structure Compiled where
  schema : Schema
  policy : Policy
  types : Keyed Strategy := ∅
  queries : Keyed Strategy := ∅

namespace Compiled

def ofSchema (result : Except SchemaError α) : Except GenerationError α := result.mapError .schema

def type (compiled : Compiled) (name : String) : Except GenerationError Strategy :=
  match compiled.types.get? name with
  | some strategy => .ok strategy
  | none => do
    match ← ofSchema (compiled.schema.classify name) with
    | .scalar => .error (.missingStrategy name)
    | kind => .error (.schema (.unknownType kind name))

def query (compiled : Compiled) (name : String) : Except GenerationError Strategy :=
  match compiled.queries.get? name with
  | some strategy => .ok strategy
  | none => .error (.schema (.unknownType .query name))

def list (compiled : Compiled) (element : Strategy) (inner : TypeRef) : Strategy :=
  .listOf element (compiled.policy.maxWidth inner.base)

def ref (compiled : Compiled) : TypeRef → Except GenerationError Strategy
  | .named name => compiled.type name
  | .nonNull inner => compiled.ref inner
  | .list inner => do return compiled.list (← compiled.ref inner) inner

def typeNames (compiled : Compiled) : List String := compiled.types.names

def queryNames (compiled : Compiled) : List String := compiled.queries.names

end Compiled

end SchemaSampler
