import SchemaSampler.Document.Node
import SchemaSampler.TypeRef
import SchemaSampler.Word

-- The first fault in the order of the text is reported, a missing field at its record's end.

namespace SchemaSampler.Document

inductive ReadError where
  | malformed
  | missingField (field : String)
  | duplicateField (field : String)
  | unknownField (field : String) (known : List String)
  | unknownVariant (variant : String) (known : List String)
  | notATypeRef
  | invalidTypeRef (cause : TypeRefError)

def quoteName (name : String) : String := "`" ++ name ++ "`"

def oneOf : List String → String
  | [] => "nothing"
  | [only] => quoteName only
  | [first, second] => quoteName first ++ " or " ++ quoteName second
  | names => "one of " ++ String.intercalate ", " (names.map quoteName)

def ReadError.message? : ReadError → Option String
  | malformed => none
  | missingField field => some ("missing field " ++ quoteName field)
  | duplicateField field => some ("duplicate field " ++ quoteName field)
  | unknownField field known =>
    some ("unknown field " ++ quoteName field ++ ", expected " ++ oneOf known)
  | unknownVariant variant known =>
    some ("unknown variant " ++ quoteName variant ++ ", expected " ++ oneOf known)
  | notATypeRef => some "data did not match any variant of untagged enum RawTypeRef"
  | invalidTypeRef cause => some ("Invalid type reference: " ++ cause.message)

def ReadError.message (error : ReadError) : String :=
  error.message?.getD "malformed document"

abbrev Read (α : Type) := Except ReadError α

-- The state is how many shared parts may still be looked up.
abbrev Reading (α : Type) := StateT Nat Read α

variable {σ : Type} [Scalar σ]

def demand (found : Option α) : Read α :=
  match found with
  | some value => .ok value
  | none => .error .malformed

def malformed : Reading α := throw .malformed

def lookUp : Reading Unit := fun left =>
  match left with
  | 0 => .error .malformed
  | left + 1 => .ok ((), left)

namespace Node

def target : Node σ → Reading (Node σ)
  | shared part => do
    lookUp
    target (part ())
  | node => return node

mutual

-- Shared parts are not looked up.
def skip : Node σ → Reading Unit
  | cut => malformed
  | seq _ items => skipItems items
  | map _ members => skipMembers members
  | _ => return ()

def skipItems : List (Node σ) → Reading Unit
  | [] => return ()
  | item :: rest => do skip item; skipItems rest

def skipMembers : List (Node σ × Node σ) → Reading Unit
  | [] => return ()
  | (key, value) :: rest => do skip key; skip value; skipMembers rest

end

def scalar (meaning : σ → Option α) (node : Node σ) : Reading α := do
  match ← node.target with
  | leaf scalar => demand (meaning scalar)
  | _ => malformed

def text : Node σ → Reading String := scalar Scalar.text?

def int64 : Node σ → Reading Int64 := scalar fun found => (Scalar.int? true found).bind Word.int64?

def uint64 : Node σ → Reading UInt64 :=
  scalar fun found => (Scalar.int? false found).bind Word.uint64?

def optional (read : Node σ → Reading α) (node : Node σ) : Reading (Option α) := do
  match ← node.target with
  | leaf scalar =>
    if ← demand (Scalar.absent? scalar) then return none else some <$> read (leaf scalar)
  | node => some <$> read node

def list (read : Node σ → Reading α) (node : Node σ) : Reading (List α) := do
  match ← node.target with
  | seq _ items => items.mapM read
  | leaf scalar => if Scalar.vacant scalar then return [] else malformed
  | _ => malformed

def keyed (read : Node σ → Reading α) (node : Node σ) : Reading (Keyed α) := do
  match ← node.target with
  | map _ members => members.foldlM (fun found (key, value) => do
      let name ← key.text
      return found.insert name (← read value)) ∅
  | leaf scalar => if Scalar.vacant scalar then return ∅ else malformed
  | _ => malformed

def mark (tags : Bool) (tag : Option String) (inner : Value) : Read Value :=
  match tag with
  | none => .ok inner
  | some tag => if tags then .ok (.tagged tag inner) else .error .malformed

mutual

def value (tags : Bool) : Node σ → Reading Value
  | shared part => do
    lookUp
    value tags (part ())
  | leaf scalar => do
    match ← demand (Scalar.value? scalar) with
    | .tagged tag inner => mark tags (some tag) inner
    | plain => return plain
  | seq tag items => do mark tags tag (.seq (← values tags items))
  | map tag members => do mark tags tag (.map (← valuePairs tags members))
  | _ => malformed

def values (tags : Bool) : List (Node σ) → Reading (List Value)
  | [] => return []
  | item :: rest => do return (← value tags item) :: (← values tags rest)

def valuePairs (tags : Bool) : List (Node σ × Node σ) → Reading (List (Value × Value))
  | [] => return []
  | (key, held) :: rest => do
    let key ← value tags key
    let held ← value tags held
    return (key, held) :: (← valuePairs tags rest)

end

def plainValue (node : Node σ) : Reading Value := do
  let found ← node.value true
  if found.distinctKeys then return found else malformed

end Node

structure Record (σ α β : Type) where
  fields : List String
  strict : Bool
  step : String → Node σ → α → Reading α
  start : α
  finish : α → Except String β

namespace Record

def members (record : Record σ α β) : List (Node σ × Node σ) → List String → α → Reading α
  | [], _, draft => return draft
  | (key, value) :: rest, seen, draft => do
    let name ← key.text
    if record.fields.contains name then
      if seen.contains name then throw (.duplicateField name)
      else
        let draft ← record.step name value draft
        record.members rest (name :: seen) draft
    else if record.strict then throw (.unknownField name record.fields)
    else
      value.skip
      record.members rest seen draft

def positions (record : Record σ α β) : List String → List (Node σ) → α → Reading α
  | _, [], draft => return draft
  | [], _ :: _, _ => malformed
  | field :: fields, item :: rest, draft => do
    let draft ← record.step field item draft
    record.positions fields rest draft

def complete (record : Record σ α β) (draft : α) : Read β :=
  (record.finish draft).mapError .missingField

def read (record : Record σ α β) (node : Node σ) : Reading β := do
  match ← node.target with
  | .map _ members => record.complete (← record.members members [] record.start)
  | .seq _ items =>
    if Scalar.positional σ then
      let draft ← record.positions record.fields items record.start
      demand (record.finish draft).toOption
    else malformed
  | .leaf scalar =>
    if Scalar.vacant scalar then record.complete record.start else malformed
  | _ => malformed

end Record

structure Text (σ : Type) where
  root : Node σ
  lookups : Nat
  complete : Bool

-- Faults inside the part that is read come before one after its end.
def Text.read (text : Text σ) (reader : Node σ → Reading α) : Read α := do
  let (found, _) ← (reader text.root).run text.lookups
  if text.complete then .ok found else .error .malformed

end SchemaSampler.Document
