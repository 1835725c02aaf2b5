namespace SchemaSampler.Random

class Source (σ : Type) where
  word32 : σ → UInt32 × σ
  word64 : σ → UInt64 × σ
  bytes : Nat → σ → List UInt8 × σ

inductive Halt where
  | nothingToDraw
  | endless
  deriving DecidableEq, Repr

-- A draw that halts keeps what it took from the source.
abbrev Draw (σ α : Type) := ExceptT Halt (StateM σ) α

variable {σ : Type} [Source σ]

def word32 : Draw σ UInt32 := fun source =>
  let (word, source) := Source.word32 source
  (.ok word, source)

def word64 : Draw σ UInt64 := fun source =>
  let (word, source) := Source.word64 source
  (.ok word, source)

def bytes (count : Nat) : Draw σ (List UInt8) := fun source =>
  let (found, source) := Source.bytes count source
  (.ok found, source)

def halt (reason : Halt) : Draw σ α := throw reason

def repeated (draw : Draw σ α) : Nat → Draw σ (List α)
  | 0 => return []
  | count + 1 => do
    let first ← draw
    let rest ← repeated draw count
    return first :: rest

inductive Recipe (α : Type) where
  | give (value : α)
  | word32 (next : UInt32 → Recipe α)
  | word64 (next : UInt64 → Recipe α)
  | bytes (count : Nat) (next : List UInt8 → Recipe α)

def Recipe.draw : Recipe α → Draw σ α
  | give value => return value
  | word32 next => do (next (← Random.word32)).draw
  | word64 next => do (next (← Random.word64)).draw
  | bytes count next => do (next (← Random.bytes count)).draw

end SchemaSampler.Random
