import SchemaSampler.Strategy
import SchemaSampler.Random.Uniform

namespace SchemaSampler

open SchemaSampler.Random

def defaultLongest : UInt32 := 5

namespace Strategy

variable {σ : Type} [Source σ]

mutual

-- The length of a list is drawn even if it can only be zero.
def draw (longest : UInt32) : Strategy → Draw σ Json
  | constant value => return value
  | intRange low high => do return .ofInt (← Random.int64 low high)
  | floatRange low high => do return .ofFloat (← Random.float low high)
  | bool => do return .bool (← Random.bool)
  | weightedBool share => do return .bool (← Random.weighted share)
  | text longest => do return .str (← Random.text longest)
  | identifier => do return .str (← Random.identifier)
  | oneOf values => do return (← Random.choice values).getD .null
  | list element own => do
    let length ← Random.below32 (own.getD longest)
    return .arr (← Random.repeated (draw longest element) length)
  | record fields => do return .ofMembers (← drawFields longest fields)
  | custom recipe => recipe.draw

def drawFields (longest : UInt32) : List (String × Strategy) → Draw σ (List (String × Json))
  | [] => return []
  | (name, field) :: rest => do
    let value ← draw longest field
    return (name, value) :: (← drawFields longest rest)

end

end Strategy

structure Sampler (σ : Type) where
  source : σ
  longest : UInt32 := defaultLongest

namespace Sampler

variable {σ : Type} [Source σ]

def sample (sampler : Sampler σ) (strategy : Strategy) : Except Halt Json × Sampler σ :=
  let (value, source) := (strategy.draw sampler.longest).run sampler.source
  (value, { sampler with source })

def samples (sampler : Sampler σ) (strategy : Strategy) :
    Nat → List Json × Option Halt × Sampler σ
  | 0 => ([], none, sampler)
  | count + 1 =>
    match sampler.sample strategy with
    | (.error reason, sampler) => ([], some reason, sampler)
    | (.ok value, sampler) =>
      let (rest, halted, sampler) := samples sampler strategy count
      (value :: rest, halted, sampler)

end Sampler

end SchemaSampler
