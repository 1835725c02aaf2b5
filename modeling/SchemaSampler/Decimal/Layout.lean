import SchemaSampler.Decimal.Shortest

namespace SchemaSampler.Decimal

-- A number below 10 ^ place and not below 10 ^ (place - 1) is written
-- positionally while `positional` holds of its place, else with an exponent.
structure Layout where
  tie : Tie
  positional : Int → Bool
  keepsPoint : Bool
  signsExponent : Bool
  notANumber : String
  infinite : String

namespace Layout

-- The two last words never come up in JSON text, where such values are null.
def json : Layout where
  tie := .toEven
  positional place := -5 < place && place ≤ 16
  keepsPoint := true
  signsExponent := true
  notANumber := "NaN"
  infinite := "inf"

def yamlKey : Layout where
  tie := .toEven
  positional place := -5 < place && place ≤ 16
  keepsPoint := true
  signsExponent := false
  notANumber := ".nan"
  infinite := ".inf"

def message : Layout where
  tie := .up
  positional _ := true
  keepsPoint := false
  signsExponent := false
  notANumber := "NaN"
  infinite := "inf"

def zeros (count : Int) : List Char := List.replicate count.toNat '0'

def digits (layout : Layout) (d : Digits) : List Char :=
  let text := Nat.toDigits 10 d.digits
  let place : Int := text.length + d.exponent
  if layout.positional place then
    if place ≤ 0 then '0' :: '.' :: (zeros (-place) ++ text)
    else if (text.length : Int) ≤ place then
      text ++ zeros (place - text.length) ++ (if layout.keepsPoint then ['.', '0'] else [])
    else text.take place.toNat ++ '.' :: text.drop place.toNat
  else
    let power := place - 1
    let sign := if power < 0 then ['-'] else if layout.signsExponent then ['+'] else []
    let mantissa := match text with
      | first :: second :: rest => first :: '.' :: second :: rest
      | short => short
    mantissa ++ 'e' :: (sign ++ Nat.toDigits 10 power.natAbs)

def render (layout : Layout) (value : Float) : String :=
  let bits := value.toBits.toNat
  if value.isNaN then layout.notANumber
  else
    let sign := if bits / Word.count 63 = 1 then ['-'] else []
    let body := if value.isInf then layout.infinite.toList
      else layout.digits ((Magnitude.ofBits bits).shortest layout.tie)
    String.ofList (sign ++ body)

end Layout

end SchemaSampler.Decimal
