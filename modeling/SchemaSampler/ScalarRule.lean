import SchemaSampler.Document.Value
import SchemaSampler.Strategy

namespace SchemaSampler

open Document

inductive ScalarRule where
  | intRange (low high : Int64)
  | floatRange (low high : Float)
  | weightedBool (share : Float)
  | oneOf (values : List Value)
  | fixed (value : Value)
  | text (longest : UInt64)
  | identifier

namespace ScalarRule

def strategy : ScalarRule → Strategy
  | intRange low high => .intRange low high
  | floatRange low high => .floatRange low high
  | weightedBool share => .weightedBool share
  | oneOf values => .oneOf (values.map Value.toJson)
  | fixed value => .constant value.toJson
  | text longest => .text longest
  | identifier => .identifier

def typeName : ScalarRule → String
  | intRange .. => "int_range"
  | floatRange .. => "float_range"
  | weightedBool _ => "weighted_bool"
  | oneOf _ => "one_of"
  | fixed _ => "static"
  | text _ => "text"
  | identifier => "uuid_v4"

def fieldsJson? : ScalarRule → Option (List (String × Json))
  | intRange low high => some [("min", .ofInt low.toInt), ("max", .ofInt high.toInt)]
  | floatRange low high => some [("min", .ofFloat low), ("max", .ofFloat high)]
  | weightedBool share => some [("true_weight", .ofFloat share)]
  | oneOf values => (Value.toJsonItems? values).map fun values => [("values", .arr values)]
  | fixed value => value.toJson?.map fun value => [("value", value)]
  | text longest => some [("max_length", .ofInt longest.toNat)]
  | identifier => some []

def toJson? (rule : ScalarRule) : Option Json :=
  rule.fieldsJson?.map fun fields => .obj (("type", .str rule.typeName) :: fields)

end ScalarRule

end SchemaSampler
