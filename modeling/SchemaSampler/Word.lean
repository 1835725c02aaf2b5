namespace SchemaSampler.Word

def count (bits : Nat) : Nat := Nat.pow 2 bits

def holds (bits : Nat) (value : Int) : Bool :=
  0 ≤ value && value < Int.ofNat (count bits)

def holdsSigned (bits : Nat) (value : Int) : Bool :=
  -Int.ofNat (count (bits - 1)) ≤ value && value < Int.ofNat (count (bits - 1))

def int64? (value : Int) : Option Int64 :=
  if holdsSigned 64 value then some (Int64.ofInt value) else none

def uint64? (value : Int) : Option UInt64 :=
  if holds 64 value then some (UInt64.ofNat value.toNat) else none

def uint32? (value : Int) : Option UInt32 :=
  if holds 32 value then some (UInt32.ofNat value.toNat) else none

end SchemaSampler.Word
