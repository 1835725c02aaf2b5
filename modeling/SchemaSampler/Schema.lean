import SchemaSampler.TypeRef

namespace SchemaSampler

structure EnumType where
  values : List String
  description : Option String := none
  deriving DecidableEq

structure FieldDef where
  ref : TypeRef
  description : Option String := none
  deriving DecidableEq

structure ObjectType where
  fields : Keyed FieldDef := ∅
  description : Option String := none
  deriving DecidableEq

-- The names of the conversion functions are carried along and mean nothing here.
structure ScalarType where
  parse : Option String := none
  serialize : Option String := none
  description : Option String := none
  deriving DecidableEq

structure QueryDef where
  ref : TypeRef
  resolve : Option String := none
  args : Keyed FieldDef := ∅
  description : Option String := none
  deriving DecidableEq

structure Schema where
  enums : Keyed EnumType := ∅
  objects : Keyed ObjectType := ∅
  scalars : Keyed ScalarType := ∅
  queries : Keyed QueryDef := ∅
  deriving DecidableEq

namespace Schema

def firstRepeated? : List String → List String → Option String
  | [], _ => none
  | value :: rest, seen =>
    if seen.contains value then some value else firstRepeated? rest (value :: seen)

def repeatedEnumValue? (schema : Schema) : Option (String × String) :=
  schema.enums.entries.findSome? fun (name, type) =>
    (firstRepeated? type.values []).map (name, ·)

def withEnum (schema : Schema) (name : String) (values : List String) : Schema :=
  { schema with enums := schema.enums.insert name { values } }

def withObject (schema : Schema) (name : String) (fields : List (String × TypeRef)) : Schema :=
  let fields := Keyed.ofList (fields.map fun (field, ref) => (field, { ref }))
  { schema with objects := schema.objects.insert name { fields } }

def withScalar (schema : Schema) (name : String) : Schema :=
  { schema with scalars := schema.scalars.insert name {} }

def withQuery (schema : Schema) (name : String) (ref : TypeRef) : Schema :=
  { schema with queries := schema.queries.insert name { ref } }

end Schema

end SchemaSampler
