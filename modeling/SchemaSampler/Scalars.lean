import SchemaSampler.GenerationError
import SchemaSampler.ScalarRule

namespace SchemaSampler

namespace Strategy

def builtin? : String → Option Strategy
  | "Int" => some (.intRange (-1000000) 1000000)
  | "Float" => some (.floatRange (-1000000.0) 1000000.0)
  | "String" => some (.text 16)
  | "Boolean" => some .bool
  | "ID" => some .identifier
  | _ => none

end Strategy

structure Scalars where
  overrides : Keyed Strategy := ∅

namespace Scalars

def ofRules (rules : Keyed ScalarRule) : Scalars := ⟨rules.mapValues ScalarRule.strategy⟩

def withOverride (scalars : Scalars) (name : String) (strategy : Strategy) : Scalars :=
  ⟨scalars.overrides.insert name strategy⟩

def has (scalars : Scalars) (name : String) : Bool :=
  scalars.overrides.contains name || (Strategy.builtin? name).isSome

def overrideNames (scalars : Scalars) : List String :=
  scalars.overrides.names.mergeSort fun first second => !(second < first)

-- Only overrides can be beyond drawing.
def strategy (scalars : Scalars) (name : String) : Except GenerationError Strategy :=
  match scalars.overrides.get? name with
  | some strategy => (strategy.check.mapError (.invalidStrategy name)).map fun _ => strategy
  | none =>
    match Strategy.builtin? name with
    | some strategy => .ok strategy
    | none => .error (.missingStrategy name)

end Scalars

end SchemaSampler
