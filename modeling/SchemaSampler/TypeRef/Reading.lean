import SchemaSampler.Json.Reader
import SchemaSampler.Yaml.Reader

namespace SchemaSampler

open Document

namespace WrittenRef

-- The field may also be named by its position.
def namesWrapper? : Value → Option Bool
  | .text name => some (name = "non_null")
  | .int position minus => if minus then none else some (position = 0)
  | _ => none

mutual

def ofValue? : Value → Option WrittenRef
  | .text name => some (.named name)
  | .seq items => (ofValues? items).map .list
  | .map members => (ofMembers? members none).map .nonNull
  | _ => none

def ofValues? : List Value → Option (List WrittenRef)
  | [] => some []
  | item :: rest =>
    match ofValue? item, ofValues? rest with
    | some first, some others => some (first :: others)
    | _, _ => none

def ofMembers? : List (Value × Value) → Option WrittenRef → Option WrittenRef
  | [], found => found
  | (key, value) :: rest, found =>
    match namesWrapper? key with
    | none => none
    | some false => ofMembers? rest found
    | some true =>
      match found, ofValue? value with
      | none, some inner => ofMembers? rest (some inner)
      | _, _ => none

end

end WrittenRef

def TypeRef.ofValue (value : Value) : Read TypeRef :=
  match WrittenRef.ofValue? value with
  | none => .error .notATypeRef
  | some written => written.check.mapError .invalidTypeRef

def TypeRef.read {σ : Type} [Scalar σ] (node : Node σ) : Reading TypeRef := do
  TypeRef.ofValue (← node.value false)

-- The text is read to its end first, so any fault in it comes before one in the reference.
def TypeRef.ofYaml (text : String) : Read TypeRef := do
  TypeRef.ofValue (← (Yaml.document text).read (Node.value false))

def TypeRef.ofJson (text : String) : Read TypeRef := (Json.document text).read TypeRef.read

end SchemaSampler
