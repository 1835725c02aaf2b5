import SchemaSampler.Json.Basic
import SchemaSampler.Text.Blank

namespace SchemaSampler

inductive TypeRef where
  | named (name : String)
  | list (inner : TypeRef)
  | nonNull (inner : TypeRef)
  deriving DecidableEq, Repr, Inhabited

namespace TypeRef

def base : TypeRef → String
  | named name => name
  | list inner => inner.base
  | nonNull inner => inner.base

def isList : TypeRef → Bool
  | named _ => false
  | list _ => true
  | nonNull inner => inner.isList

def display : TypeRef → String
  | named name => name
  | list inner => "[" ++ inner.display ++ "]"
  | nonNull inner => inner.display ++ "!"

end TypeRef

-- A reference as it is written, before its shape is checked: a list wrapper may
-- hold any number of references, and a name may be blank.
inductive WrittenRef where
  | named (name : String)
  | list (items : List WrittenRef)
  | nonNull (inner : WrittenRef)

inductive TypeRefError where
  | blankName
  | listLength (found : Nat)
  deriving DecidableEq, Repr

def TypeRefError.message : TypeRefError → String
  | blankName => "type name must not be empty"
  | listLength found => s!"list wrapper must hold exactly one type, found {found}"

namespace WrittenRef

def check : WrittenRef → Except TypeRefError TypeRef
  | named name => if Text.isAllBlank name then .error .blankName else .ok (.named name)
  | list [item] => item.check.map .list
  | list items => .error (.listLength items.length)
  | nonNull inner => inner.check.map .nonNull

end WrittenRef

namespace TypeRef

def written : TypeRef → WrittenRef
  | named name => .named name
  | list inner => .list [inner.written]
  | nonNull inner => .nonNull inner.written

def toJson : TypeRef → Json
  | named name => .str name
  | list inner => .arr [inner.toJson]
  | nonNull inner => .obj [("non_null", inner.toJson)]

end TypeRef

end SchemaSampler
