import SchemaSampler.Json.Basic
import SchemaSampler.Random.Source
import SchemaSampler.Decimal.Layout

namespace SchemaSampler

-- Ranges hold both their ends.
inductive Strategy where
  | constant (value : Json)
  | intRange (low high : Int64)
  | floatRange (low high : Float)
  | bool
  | weightedBool (share : Float)
  | text (longest : UInt64)
  | identifier
  | oneOf (values : List Json)
  -- without a bound of its own, the one of the sampler holds
  | list (element : Strategy) (longest : Option UInt32)
  -- output names may repeat
  | record (fields : List (String × Strategy))
  | custom (recipe : Random.Recipe Json)

inductive StrategyFault where
  | intBounds (low high : Int64)
  | endlessFloat
  | floatBounds (low high : Float)
  | floatWidth (low high : Float)
  | badShare (share : Float)
  | nothingToChoose

def StrategyFault.message : StrategyFault → String
  | intBounds low high => s!"int range min {low.toInt} is greater than max {high.toInt}"
  | endlessFloat => "float range bounds must be finite"
  | floatBounds low high =>
    "float range min " ++ Decimal.Layout.message.render low ++ " is greater than max " ++
      Decimal.Layout.message.render high
  | floatWidth low high =>
    "float range " ++ Decimal.Layout.message.render low ++ "..=" ++
      Decimal.Layout.message.render high ++ " is wider than f64 can represent"
  | badShare share =>
    "true_weight " ++ Decimal.Layout.message.render share ++ " is outside 0.0..=1.0"
  | nothingToChoose => "one_of needs at least one value"

namespace Strategy

instance : Inhabited Strategy := ⟨constant .null⟩

def emptyList : Strategy := constant (.arr [])

def listOf (element : Strategy) (longest : Option UInt32) : Strategy :=
  if longest = some 0 then emptyList else list element longest

def envelope (fields : List (String × Strategy)) : Strategy := record [("data", record fields)]

def recordNames? : Strategy → Option (List String)
  | record fields => some (fields.map Prod.fst)
  | _ => none

mutual

def check : Strategy → Except StrategyFault Unit
  | intRange low high => if high < low then .error (.intBounds low high) else .ok ()
  | floatRange low high =>
    if !(low.isFinite && high.isFinite) then .error .endlessFloat
    else if high < low then .error (.floatBounds low high)
    else if !(high - low).isFinite then .error (.floatWidth low high)
    else .ok ()
  | weightedBool share => if 0.0 ≤ share ∧ share ≤ 1.0 then .ok () else .error (.badShare share)
  | oneOf [] => .error .nothingToChoose
  | list element _ => check element
  | record fields => checkFields fields
  | _ => .ok ()

def checkFields : List (String × Strategy) → Except StrategyFault Unit
  | [] => .ok ()
  | (_, field) :: rest => do check field; checkFields rest

end

structure Extent where
  height : Nat
  nodes : Nat
  records : Nat
  deriving DecidableEq, Repr

mutual

def extent : Strategy → Extent
  | list element _ =>
    let inner := extent element
    ⟨inner.height + 1, inner.nodes + 1, inner.records⟩
  | record fields =>
    let inner := extentFields fields
    ⟨inner.height + 1, inner.nodes + 1, inner.records + 1⟩
  | _ => ⟨0, 1, 0⟩

def extentFields : List (String × Strategy) → Extent
  | [] => ⟨0, 0, 0⟩
  | (_, field) :: rest =>
    let first := extent field
    let others := extentFields rest
    ⟨max first.height others.height, first.nodes + others.nodes, first.records + others.records⟩

end

end Strategy

end SchemaSampler
