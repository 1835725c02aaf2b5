-- Tags are written in bytes, as their escapes may name bytes that are no text.

namespace SchemaSampler.Yaml

abbrev Bytes := List UInt8

def bytesOf (text : String) : Bytes := text.toUTF8.toList

def textOf? (bytes : Bytes) : Option String := String.fromUTF8? ⟨bytes.toArray⟩

-- Nothing counts from a zero byte on.
def untilZero (bytes : Bytes) : Bytes := bytes.takeWhile (· ≠ 0)

inductive Tag where
  | own (name : String)
  | nameless
  | bool
  | int
  | float
  | null
  | foreign
  deriving DecidableEq, Repr

namespace Tag

def mark : UInt8 := 0x21

def bare : Bytes := [mark]

def coreStart : Bytes := bytesOf "tag:yaml.org,2002:"

-- A second mark at the start of a name does not count, unless it is the name.
def plainName (name : String) : String :=
  match name.toList with
  | '!' :: c :: rest => String.ofList (c :: rest)
  | _ => name

def ofOwn (name : Bytes) : Tag :=
  if name.isEmpty then .own "!"
  else match textOf? name with
    | some name => .own (plainName name)
    | none => .nameless

def ofBytes (bytes : Bytes) : Tag :=
  match bytes with
  | first :: name =>
    if first = mark then ofOwn name
    else if bytes = coreStart ++ bytesOf "bool" then .bool
    else if bytes = coreStart ++ bytesOf "int" then .int
    else if bytes = coreStart ++ bytesOf "float" then .float
    else if bytes = coreStart ++ bytesOf "null" then .null
    else .foreign
  | [] => .foreign

def ownName? : Option Tag → Option String
  | some (.own name) => some name
  | _ => none

end Tag

end SchemaSampler.Yaml
