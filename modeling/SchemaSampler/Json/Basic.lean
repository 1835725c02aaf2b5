import SchemaSampler.Keyed

namespace SchemaSampler

inductive Number where
  | int (value : Int)
  | float (value : Float)

inductive Json where
  | null
  | bool (value : Bool)
  | num (number : Number)
  | str (text : String)
  | arr (items : List Json)
  | obj (members : List (String × Json))

namespace Json

instance : Inhabited Json := ⟨null⟩

def ofInt (value : Int) : Json := num (.int value)

-- JSON has no text for infinities and not-a-number: they are null.
def ofFloat (value : Float) : Json :=
  if value.isFinite then num (.float value) else null

def ofMembers (members : List (String × Json)) : Json :=
  obj (members.foldl (fun entries (name, value) => Entries.put name value entries) [])

def optionalMember (name : String) (value : Option Json) : List (String × Json) :=
  match value with
  | some value => [(name, value)]
  | none => []

end Json

end SchemaSampler
