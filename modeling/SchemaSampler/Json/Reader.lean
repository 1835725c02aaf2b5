import SchemaSampler.Json.Token
import SchemaSampler.Document.Reading

namespace SchemaSampler.Json

open Document

def Leaf.value? : Leaf → Option Value
  | null => some .null
  | bool value => some (.bool value)
  | num (some (.int value)) => some (.int value (value < 0))
  | num (some (.float value)) => some (.float value)
  | str (some text) => some (.text text)
  | _ => none

instance : Scalar Leaf where
  text?
    | .str text => text
    | _ => none
  absent?
    | .null => some true
    | _ => some false
  vacant _ := false
  int? _
    | .num (some (.int value)) => some value
    | _ => none
  value? := Leaf.value?
  positional := true

def nestingLimit : Nat := 127

mutual

def tree : Nat → List Token → Node Leaf × List Token
  | 0, _ => (.cut, [])
  | steps + 1, tokens =>
    match tokens with
    | .leaf leaf :: rest => (.leaf leaf, rest)
    | .beginArray :: .endArray :: rest => (.seq none [], rest)
    | .beginArray :: rest =>
      let (items, rest) := treeItems steps rest
      (.seq none items, rest)
    | .beginObject :: .endObject :: rest => (.map none [], rest)
    | .beginObject :: rest =>
      let (members, rest) := treeMembers steps rest
      (.map none members, rest)
    | _ => (.cut, [])

def treeItems : Nat → List Token → List (Node Leaf) × List Token
  | 0, _ => ([.cut], [])
  | steps + 1, tokens =>
    let (item, rest) := tree steps tokens
    match rest with
    | .comma :: rest =>
      let (items, rest) := treeItems steps rest
      (item :: items, rest)
    | .endArray :: rest => ([item], rest)
    | _ => ([item, .cut], [])

def treeMembers : Nat → List Token → List (Node Leaf × Node Leaf) × List Token
  | 0, _ => ([(.cut, .cut)], [])
  | steps + 1, tokens =>
    match tokens with
    | .leaf (.str name) :: .colon :: rest =>
      let key := Node.leaf (.str name)
      let (value, rest) := tree steps rest
      match rest with
      | .comma :: rest =>
        let (members, rest) := treeMembers steps rest
        ((key, value) :: members, rest)
      | .endObject :: rest => ([(key, value)], rest)
      | _ => ([(key, value), (.cut, .cut)], [])
    | .leaf (.str name) :: _ => ([(.leaf (.str name), .cut)], [])
    | _ => ([(.cut, .cut)], [])

end

mutual

def limit : Nat → Node Leaf → Node Leaf
  | 0, .seq _ _ => .deep
  | 0, .map _ _ => .deep
  | depth + 1, .seq tag items => .seq tag (limitItems depth items)
  | depth + 1, .map tag members => .map tag (limitMembers depth members)
  | _, node => node

def limitItems (depth : Nat) : List (Node Leaf) → List (Node Leaf)
  | [] => []
  | item :: rest => limit depth item :: limitItems depth rest

def limitMembers (depth : Nat) : List (Node Leaf × Node Leaf) → List (Node Leaf × Node Leaf)
  | [] => []
  | (key, value) :: rest => (key, limit depth value) :: limitMembers depth rest

end

-- Every call takes a token or breaks off, and at most two calls share one token.
def document (text : String) : Document.Text Leaf :=
  let chars := text.toList
  let (tokens, ended) := tokens chars.length chars
  let (root, rest) := tree (2 * tokens.length + 1) tokens
  { root := limit nestingLimit root, lookups := 0, complete := ended && rest.isEmpty }

mutual

def ofNode? : Node Leaf → Option Json
  | .leaf .null => some .null
  | .leaf (.bool value) => some (.bool value)
  | .leaf (.num number) => number.map .num
  | .leaf (.str text) => text.map .str
  | .seq _ items => (ofNodes? items).map .arr
  | .map _ members => (ofMembers? members).map .ofMembers
  | _ => none

def ofNodes? : List (Node Leaf) → Option (List Json)
  | [] => some []
  | item :: rest =>
    match ofNode? item, ofNodes? rest with
    | some first, some others => some (first :: others)
    | _, _ => none

def ofMembers? : List (Node Leaf × Node Leaf) → Option (List (String × Json))
  | [] => some []
  | (key, value) :: rest =>
    match key, ofNode? value, ofMembers? rest with
    | .leaf (.str (some name)), some held, some others => some ((name, held) :: others)
    | _, _, _ => none

end

def parse? (text : String) : Option Json :=
  let document := document text
  if document.complete then ofNode? document.root else none

end SchemaSampler.Json
