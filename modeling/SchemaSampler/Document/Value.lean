import SchemaSampler.Json.Basic
import SchemaSampler.Decimal.Layout

namespace SchemaSampler.Document

inductive Value where
  | null
  | bool (value : Bool)
  -- zero too may have been written with a minus sign
  | int (value : Int) (minus : Bool)
  | float (value : Float)
  | text (content : String)
  | seq (items : List Value)
  | map (members : List (Value × Value))
  | tagged (tag : String) (value : Value)

namespace Value

instance : Inhabited Value := ⟨null⟩

-- All not-a-numbers are one number here, and the zeros are one zero.
def sameFloat (first second : Float) : Bool :=
  (first.isNaN && second.isNaN) || first == second

mutual

def same : Value → Value → Bool
  | null, null => true
  | bool first, bool second => first == second
  | int first _, int second _ => first == second
  | float first, float second => sameFloat first second
  | text first, text second => first == second
  | seq first, seq second => sameItems first second
  | map first, map second => first.length == second.length && within first second
  | tagged tag first, tagged other second => tag == other && same first second
  | _, _ => false

def sameItems : List Value → List Value → Bool
  | [], [] => true
  | first :: rest, second :: others => same first second && sameItems rest others
  | _, _ => false

def within : List (Value × Value) → List (Value × Value) → Bool
  | [], _ => true
  | (key, value) :: rest, members =>
    members.any (fun (other, held) => same key other && same value held) && within rest members

end

mutual

def distinctKeys : Value → Bool
  | seq items => distinctKeysItems items
  | map members => distinctKeysMembers members
  | tagged _ value => distinctKeys value
  | _ => true

def distinctKeysItems : List Value → Bool
  | [] => true
  | item :: rest => distinctKeys item && distinctKeysItems rest

def distinctKeysMembers : List (Value × Value) → Bool
  | [] => true
  | (key, value) :: rest =>
    distinctKeys key && distinctKeys value && !(rest.any fun (other, _) => same key other) &&
      distinctKeysMembers rest

end

def keyText? : Value → Option String
  | text content => some content
  | int value _ => some (toString value)
  | float value => some (Decimal.Layout.yamlKey.render value)
  | bool true => some "true"
  | bool false => some "false"
  | _ => none

mutual

def toJson : Value → Json
  | null => .null
  | bool value => .bool value
  | int value _ => .ofInt value
  | float value => .ofFloat value
  | text content => .str content
  | seq items => .arr (toJsonItems items)
  | map members => .ofMembers (toJsonMembers members)
  | tagged _ value => toJson value

def toJsonItems : List Value → List Json
  | [] => []
  | item :: rest => toJson item :: toJsonItems rest

def toJsonMembers : List (Value × Value) → List (String × Json)
  | [] => []
  | (key, value) :: rest =>
    match key.keyText? with
    | some name => (name, toJson value) :: toJsonMembers rest
    | none => toJsonMembers rest

end

def memberName? : Value → Option String
  | float value => if value.isFinite then some (Decimal.Layout.json.render value) else none
  | key => key.keyText?

mutual

def toJson? : Value → Option Json
  | null => some .null
  | bool value => some (.bool value)
  | int value _ => some (.ofInt value)
  | float value => some (.ofFloat value)
  | text content => some (.str content)
  | seq items => (toJsonItems? items).map .arr
  | map members => (toJsonMembers? members).map .ofMembers
  | tagged tag value => (toJson? value).map fun inner => .obj [("!" ++ tag, inner)]

def toJsonItems? : List Value → Option (List Json)
  | [] => some []
  | item :: rest =>
    match toJson? item, toJsonItems? rest with
    | some first, some others => some (first :: others)
    | _, _ => none

def toJsonMembers? : List (Value × Value) → Option (List (String × Json))
  | [] => some []
  | (key, value) :: rest =>
    match key.memberName?, toJson? value, toJsonMembers? rest with
    | some name, some held, some others => some ((name, held) :: others)
    | _, _, _ => none

end

end Value

end SchemaSampler.Document
