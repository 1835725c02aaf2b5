import SchemaSampler.GenerationError
import SchemaSampler.Word

-- An object type with depth budget d may be entered at most d + 1 times on one way down.

namespace SchemaSampler

structure Limits where
  defaultDepth : Option Int64 := none
  defaultWidth : Option Int64 := none
  depth : Keyed Int64 := ∅
  width : Keyed Int64 := ∅

structure Policy where
  defaultDepth : UInt32 := 1
  -- without a width, lists are as long as the sampler makes them
  defaultWidth : Option UInt32 := none
  depth : Keyed UInt32 := ∅
  width : Keyed UInt32 := ∅

namespace Policy

-- The name under which a default is reported.
def anyName : String := "*"

def limit (kind : LimitKind) (name : String) (value : Int64) : Except GenerationError UInt32 :=
  match Word.uint32? value.toInt with
  | some limit => .ok limit
  | none => .error (.invalidLimit kind name value)

def limitEntries (kind : LimitKind) (written : Keyed Int64) :
    Except GenerationError (Keyed UInt32) :=
  written.entries.foldlM (fun found (name, value) => do
    return found.insert name (← limit kind name value)) ∅

def optionalLimit (kind : LimitKind) (written : Option Int64) :
    Except GenerationError (Option UInt32) :=
  match written with
  | none => .ok none
  | some value => some <$> limit kind anyName value

def ofLimits (limits : Limits) : Except GenerationError Policy := do
  let defaultDepth ← optionalLimit .depth limits.defaultDepth
  let defaultWidth ← optionalLimit .width limits.defaultWidth
  let depth ← limitEntries .depth limits.depth
  let width ← limitEntries .width limits.width
  return { defaultDepth := defaultDepth.getD 1, defaultWidth, depth, width }

def withDepth (policy : Policy) (name : String) (depth : UInt32) : Policy :=
  { policy with depth := policy.depth.insert name depth }

def withWidth (policy : Policy) (name : String) (width : UInt32) : Policy :=
  { policy with width := policy.width.insert name width }

def withDefaultDepth (policy : Policy) (depth : UInt32) : Policy :=
  { policy with defaultDepth := depth }

def withDefaultWidth (policy : Policy) (width : UInt32) : Policy :=
  { policy with defaultWidth := some width }

def budget (policy : Policy) (name : String) : UInt32 :=
  (policy.depth.get? name).getD policy.defaultDepth

-- The largest budget gives no more than itself.
def allowed (policy : Policy) (name : String) : Nat :=
  min ((policy.budget name).toNat + 1) (Word.count 32 - 1)

def remaining (policy : Policy) (name : String) (path : List String) : Nat :=
  policy.allowed name - path.count name

def mayEnter (policy : Policy) (name : String) (path : List String) : Bool :=
  0 < policy.remaining name path

def maxWidth (policy : Policy) (name : String) : Option UInt32 :=
  (policy.width.get? name).or policy.defaultWidth

end Policy

end SchemaSampler
