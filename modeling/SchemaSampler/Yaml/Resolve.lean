import SchemaSampler.Yaml.Tree
import SchemaSampler.Document.Node
import SchemaSampler.Decimal.Literal
import SchemaSampler.Word

namespace SchemaSampler.Yaml

open Document

def isNull (text : String) : Bool := ["null", "Null", "NULL", "~"].contains text

def bool? (text : String) : Option Bool :=
  if ["true", "True", "TRUE"].contains text then some true
  else if ["false", "False", "FALSE"].contains text then some false
  else none

def digit? (base : Nat) (c : Char) : Option Nat :=
  (hexDigit? c).bind fun value => if value < base then some value else none

def number? (base : Nat) (digits : List Char) : Option Nat :=
  if digits.isEmpty then none
  else digits.foldlM (fun number c => (digit? base c).map (number * base + ·)) 0

-- Decimal digits after a superfluous zero: text, not a number.
def isZeroLed (text : List Char) : Bool :=
  match (Decimal.splitSign text).2 with
  | '0' :: second :: rest => (second :: rest).all Decimal.isDigit
  | _ => false

def magnitude? (text : List Char) : Option Nat :=
  match text with
  | '0' :: 'x' :: digits => number? 16 digits
  | '0' :: 'o' :: digits => number? 8 digits
  | '0' :: 'b' :: digits => number? 2 digits
  | digits => if isZeroLed digits then none else number? 10 digits

def int? (signed : Bool) (text : List Char) : Option Int :=
  match text with
  | '-' :: rest => if signed then (magnitude? rest).map fun value => -(value : Int) else none
  | '+' :: rest => (magnitude? rest).map Int.ofNat
  | rest => (magnitude? rest).map Int.ofNat

def float? (text : String) : Option Float :=
  let unsigned := match text.toList with
    | '+' :: rest => if rest.head? = some '+' ∨ rest.head? = some '-' then none else some rest
    | rest => some rest
  unsigned.bind fun chars =>
    let body := String.ofList chars
    if [".inf", ".Inf", ".INF"].contains body then some (1.0 / 0.0)
    else if ["-.inf", "-.Inf", "-.INF"].contains text then some (-1.0 / 0.0)
    else if [".nan", ".NaN", ".NAN"].contains text then some (0.0 / 0.0)
    else (Decimal.read? chars).bind fun value => if value.isFinite then some value else none

-- An integer of more than 64 but at most 128 bits is a fault; a longer one is none.
def intValue? (text : List Char) : Option (Option Value) :=
  (int? true text).bind fun value =>
    if Word.holdsSigned 64 value || Word.holds 64 value then
      some (some (.int value (text.head? = some '-')))
    else if Word.holdsSigned 128 value || Word.holds 128 value then some none
    else none

def plainValue? (text : String) : Option Value :=
  let chars := text.toList
  if chars.isEmpty || isNull text then some .null
  else match bool? text with
    | some value => some (.bool value)
    | none =>
      match intValue? chars with
      | some value => value
      | none =>
        match if isZeroLed chars then none else float? text with
        | some value => some (.float value)
        | none => some (.text text)

namespace Content

def lookValue? (content : Content) : Option Value :=
  if content.style = .plain then plainValue? content.text else some (.text content.text)

def value? (content : Content) : Option Value :=
  match content.tag with
  | none => content.lookValue?
  | some .nameless => content.lookValue?
  | some (.own name) => content.lookValue?.map (.tagged name)
  | some .bool => (bool? content.text).map .bool
  | some .int => (intValue? content.text.toList).join
  | some .float => (float? content.text).map .float
  | some .null => if isNull content.text then some .null else none
  | some .foreign => some (.text content.text)

-- A tag makes a plain scalar that looks like null present, but for the tag of null.
def absent? (content : Content) : Option Bool :=
  if content.style ≠ .plain then some false
  else match content.tag with
    | none => some (content.text.isEmpty || isNull content.text)
    | some .null => if isNull content.text then some true else none
    | some _ => some false

def readInt? (signed : Bool) (content : Content) : Option Int :=
  if content.style = .plain ∨ (content.style = .literal ∧ content.tag = some .int) then
    int? signed content.text.toList
  else none

instance : Scalar Content where
  text? content := some content.text
  absent? := absent?
  vacant content := content.style = .plain && content.text.isEmpty
  int? := readInt?
  value? := value?
  positional := false

end Content

end SchemaSampler.Yaml
