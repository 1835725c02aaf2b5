import SchemaSampler.Json.Basic
import SchemaSampler.Decimal.Literal
import SchemaSampler.Word

-- A literal that is not a whole number of 64 bits: as many leading digits as fit in 64 bits,
-- times or over a power of ten, each step rounded.

namespace SchemaSampler.Json

structure Literal where
  negative : Bool
  whole : List Char
  fraction : Option (List Char)
  power : Option Int

def appendWhileFits (number : Nat) : List Char → Nat × Nat
  | [] => (number, 0)
  | c :: rest =>
    let longer := 10 * number + Decimal.digitValue c
    if longer < Word.count 64 then
      let (final, taken) := appendWhileFits longer rest
      (final, taken + 1)
    else (number, 0)

def largestPower : Nat := 308

def powerOfTen (power : Nat) : Float := OfScientific.ofScientific 1 false power

-- A magnitude below 2 ^ 64 reaches zero after three steps of the largest power.
def scale : Nat → Float → Int → Option Float
  | 0, value, _ => some value
  | steps + 1, value, power =>
    if power.natAbs ≤ largestPower then
      if power < 0 then some (value / powerOfTen power.natAbs)
      else
        let scaled := value * powerOfTen power.natAbs
        if scaled.isFinite then some scaled else none
    else if value == 0.0 then some value
    else if power < 0 then scale steps (value / powerOfTen largestPower) (power + largestPower)
    else none

def Literal.number? (literal : Literal) : Option Number :=
  let (leading, taken) := appendWhileFits 0 literal.whole
  let dropped := literal.whole.length - taken
  let sized (value : Float) : Number := .float (if literal.negative then -value else value)
  if dropped = 0 ∧ literal.fraction.isNone ∧ literal.power.isNone then
    if !literal.negative then some (.int leading)
    else if leading = 0 ∨ Word.count 63 < leading then some (sized (Float.ofNat leading))
    else some (.int (-leading))
  else
    let (significand, places) := appendWhileFits leading (literal.fraction.getD [])
    let power : Int := (dropped : Int) - places + literal.power.getD 0
    (scale 4 (Float.ofNat significand) power).map sized

end SchemaSampler.Json
