import SchemaSampler.Query.Parse
import SchemaSampler.SchemaError
import SchemaSampler.Strategy

namespace SchemaSampler

inductive LimitKind where
  | depth
  | width
  deriving DecidableEq, Repr

def LimitKind.name : LimitKind → String
  | depth => "depth"
  | width => "width"

inductive GenerationError where
  | schema (cause : SchemaError)
  | missingStrategy (scalar : String)
  | invalidStrategy (scalar : String) (fault : StrategyFault)
  | unknownField (type field : String)
  | selectionOnLeaf (type field : String)
  | invalidLimit (kind : LimitKind) (name : String) (value : Int64)
  | query (cause : Query.QueryError)

namespace GenerationError

def message : GenerationError → String
  | schema cause => "Schema error: " ++ cause.message
  | missingStrategy scalar => "No generation strategy for custom scalar '" ++ scalar ++ "'"
  | invalidStrategy scalar fault =>
    "Invalid strategy for scalar '" ++ scalar ++ "': " ++ fault.message
  | unknownField type field => "Field '" ++ field ++ "' is not declared on type '" ++ type ++ "'"
  | selectionOnLeaf type field =>
    "Field '" ++ field ++ "' on type '" ++ type ++ "' is a leaf and cannot have a selection set"
  | invalidLimit kind name value =>
    "Invalid " ++ kind.name ++ " for '" ++ name ++ "': " ++ toString value.toInt ++
      " (must be non-negative)"
  | query cause => "Failed to parse query: " ++ cause.message

def chain (error : GenerationError) : List String :=
  error.message :: match error with
    | schema cause => cause.chain
    | _ => []

end GenerationError

end SchemaSampler
