namespace SchemaSampler

inductive Level where
  | trace
  | debug
  | warn
  deriving DecidableEq, Repr

def Level.name : Level → String
  | trace => "TRACE"
  | debug => "DEBUG"
  | warn => "WARN"

-- Depths count the object types entered above.
inductive Event where
  | depthWithoutObject (name : String)
  | widthWithoutType (name : String)
  | emptyEnum (name : String)
  | budgetSpent (type : String) (depth : Nat)
  | fieldOmitted (type field : String)
  | memoHit (type : String) (depth : Nat)
  | objectCompiled (type : String) (depth fields : Nat)
  | scalarNotReached (name : String)
  | schemaCompiled (types queries memoEntries memoHits : Nat)
  deriving DecidableEq, Repr

namespace Event

def level : Event → Level
  | depthWithoutObject _ => .warn
  | widthWithoutType _ => .warn
  | emptyEnum _ => .warn
  | budgetSpent .. => .trace
  | fieldOmitted .. => .trace
  | memoHit .. => .trace
  | objectCompiled .. => .debug
  | scalarNotReached _ => .debug
  | schemaCompiled .. => .debug

def message : Event → String
  | depthWithoutObject _ => "depth configured for a name that is not an object type"
  | widthWithoutType _ => "width configured for a name that is not a type"
  | emptyEnum _ => "enum declares no values, generating null"
  | budgetSpent .. => "depth budget spent"
  | fieldOmitted .. => "field omitted at depth limit"
  | memoHit .. => "memo hit"
  | objectCompiled .. => "compiled object"
  | scalarNotReached _ => "custom scalar without strategy is never reached"
  | schemaCompiled .. => "schema compiled"

def details : Event → List (String × String)
  | depthWithoutObject name => [("type_name", name)]
  | widthWithoutType name => [("type_name", name)]
  | emptyEnum name => [("enum_name", name)]
  | budgetSpent type depth => [("type_name", type), ("depth", toString depth)]
  | fieldOmitted type field => [("type_name", type), ("field", field)]
  | memoHit type depth => [("type_name", type), ("depth", toString depth)]
  | objectCompiled type depth fields =>
    [("type_name", type), ("depth", toString depth), ("fields", toString fields)]
  | scalarNotReached name => [("scalar", name)]
  | schemaCompiled types queries memoEntries memoHits =>
    [("types", toString types), ("queries", toString queries),
      ("memo_entries", toString memoEntries), ("memo_hits", toString memoHits)]

def text (event : Event) : String :=
  String.intercalate " " (event.level.name :: event.message ::
    event.details.map fun (name, value) => name ++ "=" ++ value)

end Event

end SchemaSampler
