import SchemaSampler.Random.Source

-- A source that repeats given words, each time round with another offset.

namespace SchemaSampler.Random

structure Cycle where
  words : List UInt64
  taken : Nat := 0

namespace Cycle

def step : UInt64 := 0x9E3779B97F4A7C15

def next (cycle : Cycle) : UInt64 × Cycle :=
  let length := cycle.words.length
  let word := cycle.words.getD (cycle.taken % length) 0
  (word + UInt64.ofNat (cycle.taken / length) * step, { cycle with taken := cycle.taken + 1 })

def wordBytes (word : UInt64) : List UInt8 :=
  (List.range 8).map fun place => (word >>> (8 * UInt64.ofNat place)).toUInt8

def nextBytes : Nat → Cycle → List UInt8 × Cycle
  | 0, cycle => ([], cycle)
  | count + 1, cycle =>
    let (word, cycle) := cycle.next
    let (rest, cycle) := nextBytes (count - 7) cycle
    ((wordBytes word).take (count + 1) ++ rest, cycle)
termination_by count => count

end Cycle

instance : Source Cycle where
  word32 cycle := let (word, cycle) := cycle.next; (word.toUInt32, cycle)
  word64 := Cycle.next
  bytes := Cycle.nextBytes

end SchemaSampler.Random
