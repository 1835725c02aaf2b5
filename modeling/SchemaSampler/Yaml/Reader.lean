import SchemaSampler.Yaml.Resolve
import SchemaSampler.Document.Reading

namespace SchemaSampler.Yaml

open Document

mutual

def anchored : Tree → List (Nat × Tree)
  | .scalar (some number) content => [(number, .scalar (some number) content)]
  | .seq (some number) tag items => (number, .seq (some number) tag items) :: anchoredItems items
  | .map (some number) tag members =>
    (number, .map (some number) tag members) :: anchoredMembers members
  | .seq none _ items => anchoredItems items
  | .map none _ members => anchoredMembers members
  | _ => []

def anchoredItems : List Tree → List (Nat × Tree)
  | [] => []
  | item :: rest => anchored item ++ anchoredItems rest

def anchoredMembers : List (Tree × Tree) → List (Nat × Tree)
  | [] => []
  | (key, value) :: rest => anchored key ++ anchored value ++ anchoredMembers rest

end

mutual

def eventCount : Tree → Nat
  | .seq _ _ items => 2 + eventCountItems items
  | .map _ _ members => 2 + eventCountMembers members
  | .cut => 0
  | _ => 1

def eventCountItems : List Tree → Nat
  | [] => 0
  | item :: rest => eventCount item + eventCountItems rest

def eventCountMembers : List (Tree × Tree) → Nat
  | [] => 0
  | (key, value) :: rest => eventCount key + eventCount value + eventCountMembers rest

end

def nestingLimit : Nat := 128

def aliasesPerEvent : Nat := 100

def viewLevel (inner : Option (Tree → Node Content)) (tree : Tree) : Node Content :=
  match tree, inner with
  | .scalar _ content, _ => .leaf content
  | .seq _ tag items, some inner => .seq (Tag.ownName? tag) (items.map inner)
  | .map _ tag members, some inner =>
    .map (Tag.ownName? tag) (members.map fun (key, value) => (inner key, inner value))
  | .cut, _ => .cut
  | _, _ => .deep

-- Of several parts under one number the last in the text counts.
def part? (parts : List (Nat × Tree)) (number : Nat) : Option Tree :=
  ((parts.filter fun (other, _) => other = number).getLast?).map Prod.snd

-- An alias is as deep as the part it stands for would be in its place.
def viewPart (parts : List (Nat × Tree)) (inner : Option (Tree → Node Content)) (tree : Tree) :
    Node Content :=
  match tree with
  | .alias number =>
    .shared fun _ => ((part? parts number).map (viewLevel inner)).getD .deep
  | tree => viewLevel inner tree

def view (parts : List (Nat × Tree)) : Nat → Tree → Node Content
  | 0, tree => viewPart parts none tree
  | depth + 1, tree => viewPart parts (some (view parts depth)) tree

def document (text : String) : Document.Text Content :=
  let (tree, rest) := readRoot (tokens text.toList)
  { root := view (anchored tree) nestingLimit tree
    lookups := aliasesPerEvent * eventCount tree
    complete := endsStream rest.tokens }

end SchemaSampler.Yaml
