import SchemaSampler.Document.Reading
import SchemaSampler.Files

namespace SchemaSampler

inductive TypeKind where
  | enum
  | object
  | scalar
  | query
  deriving DecidableEq, Repr

def TypeKind.name : TypeKind → String
  | enum => "enum"
  | object => "object"
  | scalar => "scalar"
  | query => "query"

inductive SchemaError where
  | file (cause : FileError)
  | yaml (cause : Document.ReadError)
  | json (cause : Document.ReadError)
  | unsupportedFormat (path : String)
  | unknownType (kind : TypeKind) (name : String)
  | unknownRef (name : String)
  | ambiguous (name : String) (kinds : List TypeKind)
  | repeatedEnumValue (enum value : String)

namespace SchemaError

def message : SchemaError → String
  | file cause => "Failed to read schema file: " ++ cause.message
  | yaml cause => "Failed to parse YAML: " ++ cause.message
  | json cause => "Failed to parse JSON: " ++ cause.message
  | unsupportedFormat path => "Unsupported schema file format: " ++ path
  | unknownType kind name => "Unknown " ++ kind.name ++ " type: " ++ name
  | unknownRef name => "Unknown type: " ++ name
  | ambiguous name kinds =>
    "Type '" ++ name ++ "' is ambiguous, declared as: " ++
      String.intercalate ", " (kinds.map TypeKind.name)
  | repeatedEnumValue enum value =>
    "Enum '" ++ enum ++ "' declares value '" ++ value ++ "' more than once"

def chain (error : SchemaError) : List String :=
  error.message :: match error with
    | file cause => [cause.message]
    | yaml cause => [cause.message]
    | json cause => [cause.message]
    | _ => []

end SchemaError

end SchemaSampler
