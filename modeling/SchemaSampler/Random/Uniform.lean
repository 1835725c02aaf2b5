import SchemaSampler.Random.Source
import SchemaSampler.Text.Blank
import SchemaSampler.Word

namespace SchemaSampler.Random

variable {σ : Type} [Source σ]

-- How often a rejection loop tries. No run comes near it.
def attempts : Nat := Word.count 48

-- Of word * range the quotient by the modulus is taken, and rejected while the remainder is
-- above `zone`.
def scaled (word : Draw σ Nat) (modulus range zone : Nat) : Nat → Draw σ Nat
  | 0 => halt .endless
  | attempts + 1 => do
    let product := (← word) * range
    if product % modulus ≤ zone then return product / modulus
    else scaled word modulus range zone attempts

def shiftedZone (bits range : Nat) : Nat := range * Word.count (bits - 1 - range.log2) - 1

def exactZone (bits range : Nat) : Nat :=
  Word.count bits - 1 - (Word.count bits - range) % range

-- A full range takes the word itself, as two's complement if the range goes below zero.
def between (word : Draw σ Nat) (bits : Nat) (low high : Int) : Draw σ Int :=
  if high < low then halt .nothingToDraw
  else do
    let range := (high - low + 1).toNat
    if range = Word.count bits then
      let number : Int := ← word
      return if number ≤ high then number else number - Int.ofNat (Word.count bits)
    else return low + (← scaled word (Word.count bits) range (shiftedZone bits range) attempts)

def natWord32 : Draw σ Nat := do return (← word32).toNat

def natWord64 : Draw σ Nat := do return (← word64).toNat

def below32 (high : UInt32) : Draw σ Nat := do
  return (← between natWord32 32 0 (Int.ofNat high.toNat)).toNat

def below64 (high : UInt64) : Draw σ Nat := do
  return (← between natWord64 64 0 (Int.ofNat high.toNat)).toNat

def int64 (low high : Int64) : Draw σ Int := between natWord64 64 low.toInt high.toInt

def bool : Draw σ Bool := do return Word.count 31 ≤ (← word32).toNat

def weighted (probability : Float) : Draw σ Bool :=
  if probability == 1.0 then return true
  else if 0.0 ≤ probability ∧ probability < 1.0 then do
    let limit := (probability * 18446744073709551616.0).toUInt64
    return (← word64) < limit
  else halt .nothingToDraw

def largestFraction : Float := 1.0 - 1.0 / 4503599627370496.0

def fitScale (low high : Float) : Nat → Float → Float
  | 0, scale => scale
  | steps + 1, scale =>
    if high < scale * largestFraction + low then
      fitScale low high steps (Float.ofBits (scale.toBits - 1))
    else scale

def scale? (low high : Float) : Option Float :=
  if low ≤ high then
    let scale := (high - low) / largestFraction
    if scale.isFinite then some (fitScale low high attempts scale) else none
  else none

def float (low high : Float) : Draw σ Float :=
  match scale? low high with
  | none => halt .nothingToDraw
  | some scale => do
    let fraction := ((← word64) >>> 12).toFloat / 4503599627370496.0
    return fraction * scale + low

def choice (values : List α) : Draw σ (Option α) :=
  match values with
  | [] => return none
  | first :: rest => do
    return (first :: rest)[← below32 (UInt32.ofNat rest.length)]?

-- The code points of 0x800 to 0x10FFFF without the surrogates.
def scalarOf (place : Nat) : Char :=
  let code := place + 0x800
  Char.ofNat (if code ≤ 0xDFFF then code - 0x800 else code)

def scalarRange : Nat := 0x10F800

def visibleChar : Nat → Draw σ Char
  | 0 => halt .endless
  | tries + 1 => do
    let place ← scaled natWord32 (Word.count 32) scalarRange (exactZone 32 scalarRange) attempts
    let c := scalarOf place
    if Text.isControl c then visibleChar tries else return c

def asciiShare : Float := 0.8

def printableCount : Nat := 95

def char : Draw σ Char := do
  if ← weighted asciiShare then
    let place ← scaled natWord32 (Word.count 32) printableCount (exactZone 32 printableCount) attempts
    return Char.ofNat (' '.toNat + place)
  else visibleChar attempts

def text (longest : UInt64) : Draw σ String := do
  let length ← below64 longest
  return String.ofList (← repeated char length)

def hexPair (byte : Nat) : List Char := [Nat.digitChar (byte / 16), Nat.digitChar (byte % 16)]

def stampVersion (place byte : Nat) : Nat :=
  if place = 6 then 0x40 + byte % 0x10
  else if place = 8 then 0x80 + byte % 0x40
  else byte

def identifierText (bytes : List Nat) : String :=
  let digits := (bytes.mapIdx stampVersion).flatMap hexPair
  let group (start length : Nat) : List Char := (digits.drop start).take length
  String.ofList (group 0 8 ++ '-' :: group 8 4 ++ '-' :: group 12 4 ++ '-' :: group 16 4 ++
    '-' :: group 20 12)

def identifier : Draw σ String := do
  return identifierText (← repeated (do return (← word32).toUInt8.toNat) 16)

end SchemaSampler.Random
