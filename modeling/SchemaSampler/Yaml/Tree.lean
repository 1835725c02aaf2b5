import SchemaSampler.Yaml.Token

namespace SchemaSampler.Yaml

structure Content where
  tag : Option Tag
  style : Style
  text : String

inductive Tree where
  | scalar (anchor : Option Nat) (content : Content)
  | seq (anchor : Option Nat) (tag : Option Tag) (items : List Tree)
  | map (anchor : Option Nat) (tag : Option Tag) (members : List (Tree × Tree))
  | alias (anchor : Nat)
  | cut

structure Rest where
  tokens : List Token
  handles : List (List Char × Bytes) := []
  anchors : List (List Char × Nat) := []

namespace Rest

def next (rest : Rest) : Rest := { rest with tokens := rest.tokens.tail }

def stop (rest : Rest) : Rest := { rest with tokens := [] }

-- A new anchor takes the count of names met before it as its number, so an
-- anchor that comes after a repeated name shares a number with it.
def define (rest : Rest) (name : List Char) : Nat × Rest :=
  let number := rest.anchors.length
  let others := rest.anchors.filter fun (other, _) => other ≠ name
  (number, { rest with anchors := (name, number) :: others })

end Rest

structure Properties where
  anchor : Option (List Char) := none
  tag : Option (List Char × Bytes) := none

def readProperties (rest : Rest) : Properties × Rest :=
  match rest.tokens with
  | .anchor name :: .tag handle suffix :: tokens =>
    (⟨some name, some (handle, suffix)⟩, { rest with tokens })
  | .anchor name :: tokens => (⟨some name, none⟩, { rest with tokens })
  | .tag handle suffix :: .anchor name :: tokens =>
    (⟨some name, some (handle, suffix)⟩, { rest with tokens })
  | .tag handle suffix :: tokens => (⟨none, some (handle, suffix)⟩, { rest with tokens })
  | _ => ({}, rest)

def resolveTag (handles : List (List Char × Bytes)) :
    Option (List Char × Bytes) → Option (Option Tag)
  | none => some none
  | some ([], suffix) => some (some (.ofBytes (untilZero suffix)))
  | some (handle, suffix) =>
    (handles.lookup handle).map fun start => some (.ofBytes (untilZero start ++ untilZero suffix))

def emptyTree (anchor : Option Nat) (tag : Option Tag) : Tree :=
  .scalar anchor ⟨tag, .plain, ""⟩

def defineAnchor (name : Option (List Char)) (rest : Rest) : Option Nat × Rest :=
  match name with
  | none => (none, rest)
  | some name => let (number, rest) := rest.define name; (some number, rest)

mutual

-- Block collections are met only where `block` holds, entries without a collection of their own
-- where `bare` holds.
def node (block bare : Bool) : Nat → Rest → Tree × Rest
  | 0, rest => (.cut, rest.stop)
  | steps + 1, rest =>
    match rest.tokens with
    | .alias name :: _ =>
      match rest.anchors.lookup name with
      | some number => (.alias number, rest.next)
      | none => (.cut, rest.stop)
    | _ =>
      let (properties, rest) := readProperties rest
      match resolveTag rest.handles properties.tag with
      | none => (.cut, rest.stop)
      | some tag =>
        match rest.tokens with
        | .scalar style text :: _ =>
          let (anchor, rest) := defineAnchor properties.anchor rest
          (.scalar anchor ⟨tag, style, String.ofList text⟩, rest.next)
        | .flowSeqStart :: _ =>
          let (anchor, rest) := defineAnchor properties.anchor rest
          let (items, rest) := flowItems true steps rest.next
          (.seq anchor tag items, rest)
        | .flowMapStart :: _ =>
          let (anchor, rest) := defineAnchor properties.anchor rest
          let (members, rest) := flowMembers true steps rest.next
          (.map anchor tag members, rest)
        | token :: _ =>
          if bare ∧ token = .blockEntry then
            let (anchor, rest) := defineAnchor properties.anchor rest
            let (items, rest) := bareItems steps rest
            (.seq anchor tag items, rest)
          else if block ∧ token = .blockSeqStart then
            let (anchor, rest) := defineAnchor properties.anchor rest
            let (items, rest) := blockItems steps rest.next
            (.seq anchor tag items, rest)
          else if block ∧ token = .blockMapStart then
            let (anchor, rest) := defineAnchor properties.anchor rest
            let (members, rest) := blockMembers steps rest.next
            (.map anchor tag members, rest)
          else if properties.anchor.isSome ∨ tag.isSome then
            let (anchor, rest) := defineAnchor properties.anchor rest
            (emptyTree anchor tag, rest)
          else (.cut, rest.stop)
        | [] => (.cut, rest.stop)

def blockNode (bare : Bool) (ends : Token → Bool) : Nat → Rest → Tree × Rest
  | 0, rest => (.cut, rest.stop)
  | steps + 1, rest =>
    match rest.tokens with
    | [] => (.cut, rest.stop)
    | token :: _ => if ends token then (emptyTree none none, rest) else node true bare steps rest

def blockItems : Nat → Rest → List Tree × Rest
  | 0, rest => ([.cut], rest.stop)
  | steps + 1, rest =>
    match rest.tokens with
    | .blockEntry :: _ =>
      let (item, rest) :=
        blockNode false (fun token => token = .blockEntry || token = .blockEnd) steps rest.next
      let (items, rest) := blockItems steps rest
      (item :: items, rest)
    | .blockEnd :: _ => ([], rest.next)
    | _ => ([.cut], rest.stop)

def bareItems : Nat → Rest → List Tree × Rest
  | 0, rest => ([.cut], rest.stop)
  | steps + 1, rest =>
    match rest.tokens with
    | .blockEntry :: _ =>
      let (item, rest) := blockNode false
        (fun token => token = .blockEntry || token = .key || token = .value || token = .blockEnd)
        steps rest.next
      let (items, rest) := bareItems steps rest
      (item :: items, rest)
    | [] => ([.cut], rest.stop)
    | _ => ([], rest)

def blockMembers : Nat → Rest → List (Tree × Tree) × Rest
  | 0, rest => ([(.cut, .cut)], rest.stop)
  | steps + 1, rest =>
    let ends := fun token : Token => token = .key || token = .value || token = .blockEnd
    match rest.tokens with
    | .key :: _ =>
      let (key, rest) := blockNode true ends steps rest.next
      let (value, rest) := match rest.tokens with
        | .value :: _ => blockNode true ends steps rest.next
        | [] => (.cut, rest.stop)
        | _ => (emptyTree none none, rest)
      let (members, rest) := blockMembers steps rest
      ((key, value) :: members, rest)
    | .blockEnd :: _ => ([], rest.next)
    | _ => ([(.cut, .cut)], rest.stop)

def flowItems (first : Bool) : Nat → Rest → List Tree × Rest
  | 0, rest => ([.cut], rest.stop)
  | steps + 1, rest =>
    match rest.tokens with
    | .flowSeqEnd :: _ => ([], rest.next)
    | token :: _ =>
      if !first ∧ token ≠ .flowEntry then ([.cut], rest.stop)
      else
        let rest := if first then rest else rest.next
        match rest.tokens with
        | .flowSeqEnd :: _ => ([], rest.next)
        | .key :: _ =>
          let (item, rest) := flowPair steps rest.next
          let (items, rest) := flowItems false steps rest
          (item :: items, rest)
        | _ =>
          let (item, rest) := node false false steps rest
          let (items, rest) := flowItems false steps rest
          (item :: items, rest)
    | [] => ([.cut], rest.stop)

-- A missing key takes the token that stands in its place.
def flowPair : Nat → Rest → Tree × Rest
  | 0, rest => (.cut, rest.stop)
  | steps + 1, rest =>
    let ends := fun token : Token => token = .flowEntry || token = .flowSeqEnd
    match rest.tokens with
    | [] => (.map none none [(.cut, .cut)], rest.stop)
    | token :: _ =>
      let (key, rest) :=
        if token = .value ∨ ends token then (emptyTree none none, rest.next)
        else node false false steps rest
      let (value, rest) := flowValue ends steps rest
      (.map none none [(key, value)], rest)

def flowValue (ends : Token → Bool) : Nat → Rest → Tree × Rest
  | 0, rest => (.cut, rest.stop)
  | steps + 1, rest =>
    match rest.tokens with
    | [] => (.cut, rest.stop)
    | .value :: _ =>
      match rest.next.tokens with
      | [] => (.cut, rest.stop)
      | token :: _ =>
        if ends token then (emptyTree none none, rest.next)
        else node false false steps rest.next
    | _ => (emptyTree none none, rest)

def flowMembers (first : Bool) : Nat → Rest → List (Tree × Tree) × Rest
  | 0, rest => ([(.cut, .cut)], rest.stop)
  | steps + 1, rest =>
    let ends := fun token : Token => token = .flowEntry || token = .flowMapEnd
    match rest.tokens with
    | .flowMapEnd :: _ => ([], rest.next)
    | token :: _ =>
      if !first ∧ token ≠ .flowEntry then ([(.cut, .cut)], rest.stop)
      else
        let rest := if first then rest else rest.next
        match rest.tokens with
        | .flowMapEnd :: _ => ([], rest.next)
        | .key :: tokens =>
          let (key, rest) := match tokens with
            | [] => (.cut, rest.stop)
            | token :: _ =>
              if token = .value ∨ ends token then (emptyTree none none, rest.next)
              else node false false steps rest.next
          let (value, rest) := flowValue ends steps rest
          let (members, rest) := flowMembers false steps rest
          ((key, value) :: members, rest)
        | _ =>
          let (key, rest) := node false false steps rest
          let value := if rest.tokens.isEmpty then .cut else emptyTree none none
          let (members, rest) := flowMembers false steps rest
          ((key, value) :: members, rest)
    | [] => ([(.cut, .cut)], rest.stop)

end

def commonHandles : List (List Char × Bytes) :=
  [(['!'], Tag.bare), (['!', '!'], Tag.coreStart)]

def readDirectives : List Token → Bool → List (List Char × Bytes) →
    Option (List (List Char × Bytes) × List Token)
  | .version major minor :: rest, versioned, handles =>
    if versioned ∨ major ≠ 1 ∨ (minor ≠ 1 ∧ minor ≠ 2) then none
    else readDirectives rest true handles
  | .tagDirective handle start :: rest, versioned, handles =>
    if (handles.lookup handle).isSome then none
    else readDirectives rest versioned (handles ++ [(handle, start)])
  | rest, _, handles => some (handles ++ commonHandles, rest)

def readRoot (tokens : List Token) : Tree × Rest :=
  let steps := 3 * tokens.length + 3
  match tokens with
  | .streamEnd :: _ => (emptyTree none none, { tokens })
  | .version .. :: _ | .tagDirective .. :: _ | .documentStart :: _ =>
    match readDirectives tokens false [] with
    | some (handles, .documentStart :: rest) =>
      match rest with
      | [] => (.cut, { tokens := [] })
      | .version .. :: _ | .tagDirective .. :: _ | .documentStart :: _ | .documentEnd :: _
      | .streamEnd :: _ => (emptyTree none none, { tokens := rest })
      | _ => node true false steps { tokens := rest, handles }
    | _ => (.cut, { tokens := [] })
  | _ => node true false steps { tokens, handles := commonHandles }

def endsStream (tokens : List Token) : Bool :=
  tokens.dropWhile (· = .documentEnd) = [.streamEnd]

end SchemaSampler.Yaml
