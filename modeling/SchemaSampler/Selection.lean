import SchemaSampler.Document.Reading

namespace SchemaSampler

open Document

-- An absent nested selection and an empty one are different things.
structure Selection where
  name : String
  label : Option String := none
  nested : Option (List Selection) := none

namespace Selection

instance : Inhabited Selection := ⟨⟨"", none, none⟩⟩

def outputName (selection : Selection) : String := selection.label.getD selection.name

mutual

def toJson : Selection → Json
  | ⟨name, label, nested⟩ =>
    .obj (("name", .str name) :: (Json.optionalMember "alias" (label.map .str) ++
      match nested with
      | none => []
      | some selections => [("selection_set", .arr (setToJson selections))]))

def setToJson : List Selection → List Json
  | [] => []
  | selection :: rest => toJson selection :: setToJson rest

end

structure Draft where
  name : Option String := none
  label : Option String := none
  nested : Option (List Selection) := none

variable {σ : Type} [Scalar σ]

def record (readNested : Node σ → Reading (List Selection)) : Record σ Draft Selection where
  fields := ["name", "alias", "selection_set"]
  strict := false
  step field node draft :=
    if field = "name" then return { draft with name := some (← node.text) }
    else if field = "alias" then return { draft with label := ← node.optional Node.text }
    else return { draft with nested := ← node.optional readNested }
  start := {}
  finish draft :=
    match draft.name with
    | some name => .ok ⟨name, draft.label, draft.nested⟩
    | none => .error "name"

-- Each level of selections takes two levels of the document.
def read : Nat → Node σ → Reading Selection
  | 0, _ => malformed
  | depth + 1, node => (record (Node.list (read depth))).read node

def levels : Nat := 64

def readSet (node : Node σ) : Reading (List Selection) := node.list (read levels)

end Selection

end SchemaSampler
