import SchemaSampler.Compile
import SchemaSampler.Config
import SchemaSampler.Projection
import SchemaSampler.Random.ChaCha
import SchemaSampler.Sample

namespace SchemaSampler

open SchemaSampler.Random

structure Generator (σ : Type) where
  compiled : Compiled
  sampler : Sampler σ
  drawn : Nat := 0

structure Pending where
  strategy : Strategy
  left : Nat

namespace Generator

variable {σ : Type} [Source σ]

def sample (generator : Generator σ) (strategy : Strategy) :
    Except Halt Json × Generator σ :=
  let (value, sampler) := generator.sampler.sample strategy
  (value, { generator with sampler, drawn := generator.drawn + 1 })

-- Values drawn one after the other, up to the first draw that halts.
def samples (generator : Generator σ) (strategy : Strategy) :
    Nat → List Json × Option Halt × Generator σ
  | 0 => ([], none, generator)
  | count + 1 =>
    match generator.sample strategy with
    | (.error reason, generator) => ([], some reason, generator)
    | (.ok value, generator) =>
      let (rest, halted, generator) := samples generator strategy count
      (value :: rest, halted, generator)

def next (generator : Generator σ) (type : String) :
    Except GenerationError (Except Halt Json × Generator σ) :=
  (generator.compiled.type type).map generator.sample

def values (generator : Generator σ) (type : String) (count : Nat) :
    Except GenerationError Pending :=
  (generator.compiled.type type).map fun strategy => { strategy, left := count }

def queryResults (generator : Generator σ) (text : String) (bindings : List (String × Json))
    (count : Nat) : Except GenerationError (List Json × Option Halt × Generator σ) :=
  (generator.compiled.queryResult text bindings).map fun strategy =>
    generator.samples strategy count

end Generator

namespace Pending

variable {σ : Type} [Source σ]

def next? (pending : Pending) (generator : Generator σ) :
    Option (Except Halt Json × Pending × Generator σ) :=
  match pending.left with
  | 0 => none
  | left + 1 =>
    let (value, generator) := generator.sample pending.strategy
    some (value, { pending with left }, generator)

def take (pending : Pending) (generator : Generator σ) :
    Nat → List Json × Option Halt × Pending × Generator σ
  | 0 => ([], none, pending, generator)
  | count + 1 =>
    match pending.next? generator with
    | none => ([], none, pending, generator)
    | some (.error reason, pending, generator) => ([], some reason, pending, generator)
    | some (.ok value, pending, generator) =>
      let (rest, halted, pending, generator) := take pending generator count
      (value :: rest, halted, pending, generator)

end Pending

inductive BuildError where
  | limits (cause : GenerationError)
  | compilation (cause : GenerationError)

namespace BuildError

def cause : BuildError → GenerationError
  | limits cause => cause
  | compilation cause => cause

def chain : BuildError → List String
  | limits cause => "Invalid depth/width configuration" :: cause.chain
  | compilation cause => "Failed to compile schema" :: cause.chain

end BuildError

namespace Generator

def seeded (compiled : Compiled) (seed : UInt64) : Generator ChaCha where
  compiled := compiled
  sampler := { source := .ofSeed seed }

def build (schema : Schema) (config : Config) (seed : Option UInt64) :
    Except BuildError (Generator ChaCha) := do
  let policy ← config.policy.mapError .limits
  let setup : Setup := { schema, policy, scalars := config.scalarTable }
  let compiled ← setup.compile.mapError .compilation
  return seeded compiled (config.resolveSeed seed)

end Generator

end SchemaSampler
