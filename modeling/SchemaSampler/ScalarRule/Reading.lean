import SchemaSampler.ScalarRule
import SchemaSampler.Document.Reading

-- What stands beside the type is read without an expected type, then as the type's fields.

namespace SchemaSampler

open Document

namespace ScalarRule

inductive Form where
  | intRange
  | floatRange
  | weightedBool
  | oneOf
  | fixed
  | text
  | identifier
  deriving DecidableEq, Repr

def forms : List (String × Form) :=
  [("int_range", .intRange), ("float_range", .floatRange), ("weighted_bool", .weightedBool),
    ("one_of", .oneOf), ("static", .fixed), ("text", .text), ("uuid_v4", .identifier)]

def Form.ofName (name : String) : Read Form :=
  match forms.lookup name with
  | some form => .ok form
  | none => .error (.unknownVariant name (forms.map Prod.fst))

def typeField : String := "type"

def defaultLongest : UInt64 := 16

inductive Body where
  | members (members : List (Value × Value))
  | items (items : List Value)

namespace Body

-- The outer option is none for a key that can name no field, the inner one for a field that is
-- not wanted.
def fieldOf? (fields : List String) : Value → Option (Option String)
  | .text name => some (if fields.contains name then some name else none)
  | .int position minus => if minus then none else some fields[position.toNat]?
  | _ => none

def gatherMembers (fields : List String) (read : Value → Read α) :
    List (Value × Value) → Keyed α → Read (Keyed α)
  | [], found => .ok found
  | (key, value) :: rest, found => do
    match ← demand (fieldOf? fields key) with
    | none => gatherMembers fields read rest found
    | some field =>
      if found.contains field then .error (.duplicateField field)
      else gatherMembers fields read rest (found.insert field (← read value))

def gatherItems (read : Value → Read α) :
    List String → List Value → Keyed α → Read (Keyed α)
  | _, [], found => .ok found
  | [], _ :: _, _ => .error .malformed
  | field :: fields, item :: rest, found => do
    gatherItems read fields rest (found.insert field (← read item))

def gather (fields : List String) (read : Value → Read α) : Body → Read (Keyed α)
  | members list => gatherMembers fields read list ∅
  | items list => gatherItems read fields list ∅

def need (body : Body) (found : Keyed α) (field : String) : Read α :=
  match found.get? field, body with
  | some value, _ => .ok value
  | none, members _ => .error (.missingField field)
  | none, items _ => .error .malformed

def int64 : Value → Read Int64
  | .int value _ => demand (Word.int64? value)
  | _ => .error .malformed

def uint64 : Value → Read UInt64
  | .int value _ => demand (Word.uint64? value)
  | _ => .error .malformed

-- Whole numbers are rounded to the nearest binary64 number.
def float : Value → Read Float
  | .int value _ => .ok (Float.ofInt value)
  | .float value => .ok value
  | _ => .error .malformed

def plain (value : Value) : Read Value :=
  if value.distinctKeys then .ok value else .error .malformed

def list : Value → Read (List Value)
  | .seq values => values.mapM plain
  | _ => .error .malformed

def rule (body : Body) : Form → Read ScalarRule
  | .intRange => do
    let found ← body.gather ["min", "max"] int64
    return .intRange (← body.need found "min") (← body.need found "max")
  | .floatRange => do
    let found ← body.gather ["min", "max"] float
    return .floatRange (← body.need found "min") (← body.need found "max")
  | .weightedBool => do
    let found ← body.gather ["true_weight"] float
    return .weightedBool (← body.need found "true_weight")
  | .oneOf => do
    let found ← body.gather ["values"] list
    return .oneOf (← body.need found "values")
  | .fixed => do
    let found ← body.gather ["value"] plain
    return .fixed (← body.need found "value")
  | .text => do
    let found ← body.gather ["max_length"] uint64
    return .text ((found.get? "max_length").getD defaultLongest)
  | .identifier =>
    match body with
    | items (_ :: _) => .error .malformed
    | _ => .ok .identifier

end Body

variable {σ : Type} [Scalar σ]

def formOf (node : Node σ) : Reading Form := do Form.ofName (← node.text)

def split : List (Node σ × Node σ) → Option Form → Reading (Option Form × List (Value × Value))
  | [], form => return (form, [])
  | (key, value) :: rest, form => do
    match ← key.value false with
    | .text name =>
      if name = typeField then
        if form.isSome then throw (.duplicateField typeField)
        else split rest (some (← formOf value))
      else
        let held ← value.value false
        let (form, others) ← split rest form
        return (form, (.text name, held) :: others)
    | key =>
      let held ← value.value false
      let (form, others) ← split rest form
      return (form, (key, held) :: others)

def read (node : Node σ) : Reading ScalarRule := do
  match ← node.target with
  | .map none members =>
    match ← split members none with
    | (none, _) => throw (.missingField typeField)
    | (some form, members) => (Body.members members).rule form
  | .seq none [] => throw (.missingField typeField)
  | .seq none (first :: rest) =>
    let form ← formOf first
    (Body.items (← Node.values false rest)).rule form
  | _ => malformed

end ScalarRule

end SchemaSampler
