import SchemaSampler.Schema.Writing
import SchemaSampler.SchemaError

namespace SchemaSampler

def builtinScalars : List String := ["Int", "Float", "String", "Boolean", "ID"]

def isBuiltin (name : String) : Bool := builtinScalars.contains name

-- A built-in scalar that is not declared has no definition.
inductive Definition where
  | enum (type : EnumType)
  | object (type : ObjectType)
  | scalar (type : Option ScalarType)
  | query (query : QueryDef)

def Definition.kind : Definition → TypeKind
  | enum _ => .enum
  | object _ => .object
  | scalar _ => .scalar
  | query _ => .query

def Definition.toJson? : Definition → Option Json
  | enum type => some type.toJson
  | object type => some type.toJson
  | scalar type => type.map ScalarType.toJson
  | query found => some found.toJson

namespace Schema

def enum (schema : Schema) (name : String) : Except SchemaError EnumType :=
  match schema.enums.get? name with
  | some type => .ok type
  | none => .error (.unknownType .enum name)

def object (schema : Schema) (name : String) : Except SchemaError ObjectType :=
  match schema.objects.get? name with
  | some type => .ok type
  | none => .error (.unknownType .object name)

def query (schema : Schema) (name : String) : Except SchemaError QueryDef :=
  match schema.queries.get? name with
  | some query => .ok query
  | none => .error (.unknownType .query name)

def resolve (schema : Schema) (kind : TypeKind) (name : String) : Except SchemaError Definition :=
  match kind with
  | .enum => (schema.enum name).map .enum
  | .object => (schema.object name).map .object
  | .query => (schema.query name).map .query
  | .scalar =>
    match schema.scalars.get? name with
    | some type => .ok (.scalar (some type))
    | none =>
      if isBuiltin name then .ok (.scalar none) else .error (.unknownType .scalar name)

def kinds (schema : Schema) (name : String) : List TypeKind :=
  (if schema.enums.contains name then [.enum] else []) ++
    (if schema.objects.contains name then [.object] else []) ++
    (if schema.scalars.contains name || isBuiltin name then [.scalar] else [])

def classify (schema : Schema) (name : String) : Except SchemaError TypeKind :=
  match schema.kinds name with
  | [] => .error (.unknownRef name)
  | [kind] => .ok kind
  | kinds => .error (.ambiguous name kinds)

def classifyRef (schema : Schema) (ref : TypeRef) : Except SchemaError TypeKind :=
  schema.classify ref.base

def names (schema : Schema) : TypeKind → List String
  | .enum => schema.enums.names
  | .object => schema.objects.names
  | .scalar => builtinScalars ++ schema.scalars.names
  | .query => schema.queries.names

def refs (schema : Schema) : List TypeRef :=
  schema.objects.values.flatMap (fun object => object.fields.values.map FieldDef.ref) ++
    schema.queries.values.map QueryDef.ref

def validate (schema : Schema) : Except SchemaError Unit :=
  schema.refs.forM fun ref => (schema.classifyRef ref).map fun _ => ()

end Schema

end SchemaSampler
