import SchemaSampler.Word

-- Among the decimals with the fewest digits inside the rounding interval, the nearest.

namespace SchemaSampler.Decimal

-- At a power of two the gap to the neighbour below is half of the gap above.
structure Magnitude where
  mantissa : Nat
  exponent : Int
  halfGapBelow : Bool
  deriving Repr, DecidableEq

def Magnitude.ofBits (bits : Nat) : Magnitude :=
  let fraction := bits % Word.count 52
  let scale := bits / Word.count 52 % Word.count 11
  if scale = 0 then ⟨fraction, -1074, false⟩
  else ⟨fraction + Word.count 52, Int.ofNat scale - 1075, fraction = 0 && decide (1 < scale)⟩

structure Digits where
  digits : Nat
  exponent : Int
  deriving Repr, DecidableEq

inductive Tie where
  | toEven
  | up
  deriving Repr, DecidableEq

-- A quarter of the gap above `m` in steps of 10 ^ place, as the fraction fst / snd.
def Magnitude.quarter (m : Magnitude) (place : Int) : Nat × Nat :=
  (Nat.pow 2 (m.exponent - 2).toNat * Nat.pow 10 (-place).toNat,
   Nat.pow 2 (2 - m.exponent).toNat * Nat.pow 10 place.toNat)

-- The ends of the interval belong to it exactly when the mantissa is even.
def Magnitude.readsBack (m : Magnitude) (place : Int) (count : Nat) : Bool :=
  let (num, den) := m.quarter place
  let low := (4 * m.mantissa - if m.halfGapBelow then 1 else 2) * num
  let high := (4 * m.mantissa + 2) * num
  if m.mantissa % 2 = 0 then low ≤ count * den && count * den ≤ high
  else low < count * den && count * den < high

def Magnitude.onGrid? (tie : Tie) (m : Magnitude) (place : Int) : Option Nat :=
  let (num, den) := m.quarter place
  let below := 4 * m.mantissa * num / den
  let rest := 4 * m.mantissa * num % den
  let lower := m.readsBack place below
  let upper := rest != 0 && m.readsBack place (below + 1)
  if lower && upper then
    if 2 * rest < den then some below
    else if den < 2 * rest then some (below + 1)
    else match tie with
      | .up => some (below + 1)
      | .toEven => if below % 2 = 0 then some below else some (below + 1)
  else if lower then some below
  else if upper then some (below + 1)
  else none

def Magnitude.leadingPlace (m : Magnitude) : Int :=
  let bits : Int := (m.mantissa.log2 : Int) + m.exponent
  let start := bits * 30103 / 100000 - 1
  let covers (place : Int) : Bool :=
    let (num, den) := m.quarter place
    4 * m.mantissa * num < den
  (List.range 4).foldl (fun place _ => if covers place then place else place + 1) start

def Digits.strip : Nat → Digits → Digits
  | 0, d => d
  | fuel + 1, d =>
    if d.digits != 0 && d.digits % 10 = 0 then strip fuel ⟨d.digits / 10, d.exponent + 1⟩ else d

-- Seventeen digits always suffice; the first grid with a hit has the fewest.
def Magnitude.shortest (tie : Tie) (m : Magnitude) : Digits :=
  if m.mantissa = 0 then ⟨0, 0⟩
  else
    let top := m.leadingPlace
    let found := (List.range 17).findSome? fun count =>
      let place := top - (count + 1 : Nat)
      (m.onGrid? tie place).map (Digits.mk · place)
    (found.getD ⟨m.mantissa, 0⟩).strip 18

end SchemaSampler.Decimal
