namespace SchemaSampler.Decimal

-- (-1)^negative * significand * 10 ^ exponent, as written.
structure Literal where
  negative : Bool
  significand : Nat
  exponent : Int
  deriving Repr, DecidableEq

def isDigit (c : Char) : Bool := '0' ≤ c && c ≤ '9'

def digitValue (c : Char) : Nat := c.toNat - '0'.toNat

def appendDigits (start : Nat) (digits : List Char) : Nat :=
  digits.foldl (fun number c => 10 * number + digitValue c) start

def splitSign : List Char → Bool × List Char
  | '-' :: rest => (true, rest)
  | '+' :: rest => (false, rest)
  | text => (false, text)

def readPower : List Char → Option Int
  | [] => some 0
  | c :: rest =>
    if c = 'e' || c = 'E' then
      let (negative, digits) := splitSign rest
      if !digits.isEmpty && digits.all isDigit then
        let power : Int := appendDigits 0 digits
        some (if negative then -power else power)
      else none
    else none

def Literal.read? (text : List Char) : Option Literal :=
  let (negative, body) := splitSign text
  let whole := body.takeWhile isDigit
  let afterWhole := body.dropWhile isDigit
  let (fraction, tail) := match afterWhole with
    | '.' :: rest => (rest.takeWhile isDigit, rest.dropWhile isDigit)
    | rest => ([], rest)
  if whole.isEmpty && fraction.isEmpty then none
  else (readPower tail).map fun power =>
    ⟨negative, appendDigits (appendDigits 0 whole) fraction, power - (fraction.length : Int)⟩

-- A tie goes to the even mantissa. Beyond the range of binary64 the leading digit decides.
def Literal.toFloat (literal : Literal) : Float :=
  let place : Int := (Nat.toDigits 10 literal.significand).length + literal.exponent
  let size : Float :=
    if literal.significand = 0 || place < -400 then 0.0
    else if 400 < place then 1.0 / 0.0
    else OfScientific.ofScientific literal.significand (literal.exponent < 0)
      literal.exponent.natAbs
  if literal.negative then -size else size

def read? (text : List Char) : Option Float := (Literal.read? text).map Literal.toFloat

end SchemaSampler.Decimal
