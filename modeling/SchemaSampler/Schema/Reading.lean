import SchemaSampler.Schema
import SchemaSampler.SchemaError
import SchemaSampler.TypeRef.Reading
import SchemaSampler.Json.Reader
import SchemaSampler.Yaml.Reader

namespace SchemaSampler

open Document

variable {σ : Type} [Scalar σ]

-- Records whose fields are all optional are drafts of themselves.
def optionalText (node : Node σ) : Reading (Option String) := node.optional Node.text

namespace EnumType

structure Draft where
  values : Option (List String) := none
  description : Option String := none

def record : Record σ Draft EnumType where
  fields := ["values", "description"]
  strict := false
  step field node draft :=
    if field = "values" then return { draft with values := some (← node.list Node.text) }
    else return { draft with description := ← optionalText node }
  start := {}
  finish draft :=
    match draft.values with
    | some values => .ok ⟨values, draft.description⟩
    | none => .error "values"

end EnumType

namespace FieldDef

structure Draft where
  ref : Option TypeRef := none
  description : Option String := none

def record : Record σ Draft FieldDef where
  fields := ["type", "description"]
  strict := false
  step field node draft :=
    if field = "type" then return { draft with ref := some (← TypeRef.read node) }
    else return { draft with description := ← optionalText node }
  start := {}
  finish draft :=
    match draft.ref with
    | some ref => .ok ⟨ref, draft.description⟩
    | none => .error "type"

end FieldDef

def ObjectType.record : Record σ ObjectType ObjectType where
  fields := ["fields", "description"]
  strict := false
  step field node draft :=
    if field = "fields" then return { draft with fields := ← node.keyed FieldDef.record.read }
    else return { draft with description := ← optionalText node }
  start := {}
  finish := .ok

def ScalarType.record : Record σ ScalarType ScalarType where
  fields := ["parse", "serialize", "description"]
  strict := false
  step field node draft :=
    if field = "parse" then return { draft with parse := ← optionalText node }
    else if field = "serialize" then return { draft with serialize := ← optionalText node }
    else return { draft with description := ← optionalText node }
  start := {}
  finish := .ok

namespace QueryDef

structure Draft where
  ref : Option TypeRef := none
  resolve : Option String := none
  args : Keyed FieldDef := ∅
  description : Option String := none

def record : Record σ Draft QueryDef where
  fields := ["type", "resolve", "args", "description"]
  strict := false
  step field node draft :=
    if field = "type" then return { draft with ref := some (← TypeRef.read node) }
    else if field = "resolve" then return { draft with resolve := ← optionalText node }
    else if field = "args" then return { draft with args := ← node.keyed FieldDef.record.read }
    else return { draft with description := ← optionalText node }
  start := {}
  finish draft :=
    match draft.ref with
    | some ref => .ok ⟨ref, draft.resolve, draft.args, draft.description⟩
    | none => .error "type"

end QueryDef

namespace Schema

def record : Record σ Schema Schema where
  fields := ["enums", "objects", "scalars", "queries"]
  strict := false
  step field node draft :=
    if field = "enums" then return { draft with enums := ← node.keyed EnumType.record.read }
    else if field = "objects" then
      return { draft with objects := ← node.keyed ObjectType.record.read }
    else if field = "scalars" then
      return { draft with scalars := ← node.keyed ScalarType.record.read }
    else return { draft with queries := ← node.keyed QueryDef.record.read }
  start := {}
  finish := .ok

def checkEnums (schema : Schema) : Except SchemaError Schema :=
  match schema.repeatedEnumValue? with
  | some (enum, value) => .error (.repeatedEnumValue enum value)
  | none => .ok schema

def ofYaml (text : String) : Except SchemaError Schema := do
  checkEnums (← ((Yaml.document text).read record.read).mapError .yaml)

def ofJson (text : String) : Except SchemaError Schema := do
  checkEnums (← ((Json.document text).read record.read).mapError .json)

-- The file is read before its extension is looked at.
def ofFile (files : Files) (path : String) : Except SchemaError Schema := do
  let text ← (files path).mapError .file
  match Path.extension? path with
  | some "yaml" => ofYaml text
  | some "yml" => ofYaml text
  | some "json" => ofJson text
  | _ => .error (.unsupportedFormat path)

end Schema

end SchemaSampler
