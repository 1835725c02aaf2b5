import SchemaSampler.Document.Value

namespace SchemaSampler.Document

inductive Node (σ : Type) where
  | leaf (scalar : σ)
  | seq (tag : Option String) (items : List (Node σ))
  | map (tag : Option String) (members : List (Node σ × Node σ))
  -- a part that stands elsewhere, looked up only where it is read
  | shared (part : Unit → Node σ)
  | cut
  | deep

class Scalar (σ : Type) where
  text? : σ → Option String
  -- whether a value is absent, if the scalar may stand there at all
  absent? : σ → Option Bool
  vacant : σ → Bool
  int? : (signed : Bool) → σ → Option Int
  value? : σ → Option Value
  positional : Bool

end SchemaSampler.Document
