import SchemaSampler.Schema

-- Schemas as JSON. Absent parts are left out; the four groups never are.

namespace SchemaSampler

open Json (optionalMember)

def describe (description : Option String) : List (String × Json) :=
  optionalMember "description" (description.map .str)

def EnumType.toJson (type : EnumType) : Json :=
  .obj (("values", .arr (type.values.map .str)) :: describe type.description)

def FieldDef.toJson (field : FieldDef) : Json :=
  .obj (("type", field.ref.toJson) :: describe field.description)

def Keyed.toJson (member : α → Json) (map : Keyed α) : Json :=
  .obj (map.mapValues member).entries

def ObjectType.toJson (type : ObjectType) : Json :=
  .obj (("fields", type.fields.toJson FieldDef.toJson) :: describe type.description)

def ScalarType.toJson (type : ScalarType) : Json :=
  .obj (optionalMember "parse" (type.parse.map .str) ++
    optionalMember "serialize" (type.serialize.map .str) ++ describe type.description)

def QueryDef.toJson (query : QueryDef) : Json :=
  .obj (("type", query.ref.toJson) :: (optionalMember "resolve" (query.resolve.map .str) ++
    (if query.args.isEmpty then [] else [("args", query.args.toJson FieldDef.toJson)]) ++
    describe query.description))

def Schema.toJson (schema : Schema) : Json :=
  .obj [("enums", schema.enums.toJson EnumType.toJson),
    ("objects", schema.objects.toJson ObjectType.toJson),
    ("scalars", schema.scalars.toJson ScalarType.toJson),
    ("queries", schema.queries.toJson QueryDef.toJson)]

end SchemaSampler
