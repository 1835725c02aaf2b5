import SchemaSampler.Compiled

-- Selections nest of their own, so no depth budget holds here. Lists keep their widths.

namespace SchemaSampler

def typeNameField : String := "__typename"

def rootType : String := "Query"

namespace Compiled

def through (compiled : Compiled) (object : String → Except GenerationError Strategy)
    (parent field : String) : TypeRef → Except GenerationError Strategy
  | .nonNull inner => compiled.through object parent field inner
  | .list inner => do
    return compiled.list (← compiled.through object parent field inner) inner
  | .named name => do
    match ← ofSchema (compiled.schema.classify name) with
    | .object => object name
    | _ => .error (.selectionOnLeaf parent field)

def fieldRef (type : String) (object : ObjectType) (field : String) :
    Except GenerationError TypeRef :=
  match object.fields.get? field with
  | some found => .ok found.ref
  | none => .error (.unknownField type field)

def queryRef (compiled : Compiled) (name : String) : Except GenerationError TypeRef :=
  ofSchema ((compiled.schema.query name).map QueryDef.ref)

mutual

def selected (compiled : Compiled) (parent : String)
    (refOf : String → Except GenerationError TypeRef) :
    Selection → Except GenerationError (String × Strategy)
  | ⟨name, label, nested⟩ =>
    if name = typeNameField then
      match nested with
      | some _ => .error (.selectionOnLeaf parent typeNameField)
      | none => .ok (label.getD name, .constant (.str parent))
    else do
      let ref ← refOf name
      match nested with
      | none => return (label.getD name, ← compiled.ref ref)
      | some selections =>
        let strategy ← compiled.through (fun type => do
          let object ← ofSchema (compiled.schema.object type)
          return .record (← compiled.allSelected type (fieldRef type object) selections))
          parent name ref
        return (label.getD name, strategy)

def allSelected (compiled : Compiled) (parent : String)
    (refOf : String → Except GenerationError TypeRef) :
    List Selection → Except GenerationError (List (String × Strategy))
  | [] => .ok []
  | selection :: rest => do
    let first ← compiled.selected parent refOf selection
    let others ← compiled.allSelected parent refOf rest
    return first :: others

end

def selectedObject (compiled : Compiled) (selections : List Selection) (type : String) :
    Except GenerationError Strategy := do
  let object ← ofSchema (compiled.schema.object type)
  return .record (← compiled.allSelected type (fieldRef type object) selections)

-- An empty selection means the whole result.
def project (compiled : Compiled) (query : String) (selections : List Selection) :
    Except GenerationError Strategy := do
  let ref ← compiled.queryRef query
  let strategy ←
    if selections.isEmpty then compiled.ref ref
    else compiled.through (compiled.selectedObject selections) rootType query ref
  return .envelope [(query, strategy)]

def projectOperation (compiled : Compiled) (operation : List Selection) :
    Except GenerationError Strategy := do
  return .envelope (← compiled.allSelected rootType compiled.queryRef operation)

-- Variables are taken along and mean nothing here.
def queryResult (compiled : Compiled) (text : String) (_bindings : List (String × Json)) :
    Except GenerationError Strategy := do
  compiled.projectOperation (← (Query.parse text).mapError .query)

end Compiled

end SchemaSampler
