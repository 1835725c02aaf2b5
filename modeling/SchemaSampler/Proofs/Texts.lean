import SchemaSampler.Proofs.Drawing

namespace SchemaSampler

open SchemaSampler.Random

variable {σ : Type} [Source σ]

namespace Text

def hexDigits : List Char := "0123456789abcdef".toList

-- Version 4: digits in groups of 8, 4, 4, 4 and 12 with hyphens between them.
def identifierPlaces : List (List Char) :=
  List.replicate 8 hexDigits ++ ['-'] :: List.replicate 4 hexDigits ++
    ['-'] :: ['4'] :: List.replicate 3 hexDigits ++
    ['-'] :: ['8', '9', 'a', 'b'] :: List.replicate 3 hexDigits ++
    ['-'] :: List.replicate 12 hexDigits

def IsIdentifier (text : String) : Prop := List.Forall₂ (· ∈ ·) text.toList identifierPlaces

end Text

namespace Random

theorem printable_not_control : ∀ place < printableCount,
    Text.isControl (Char.ofNat (' '.toNat + place)) = false := by
  decide

theorem visibleChar_yields {tries : Nat} {c : Char}
    (drawn : Yields (visibleChar tries : Draw σ Char) c) : Text.isControl c = false := by
  induction tries with
  | zero => exact absurd drawn not_yields_halt
  | succ tries ih =>
    obtain ⟨place, _, drawn⟩ := yields_bind drawn
    dsimp only at drawn
    split at drawn
    · exact ih drawn
    · rename_i visible
      rw [yields_pure drawn]
      simpa using visible

theorem char_yields {c : Char} (drawn : Yields (char : Draw σ Char) c) :
    Text.isControl c = false := by
  obtain ⟨printable, _, drawn⟩ := yields_bind drawn
  cases printable with
  | true =>
    obtain ⟨place, one, drawn⟩ := yields_bind drawn
    rw [yields_pure drawn]
    apply printable_not_control
    exact scaled_below (fun _ => natWord32_yields) (by decide) one
  | false => exact visibleChar_yields drawn

theorem text_yields {longest : UInt64} {content : String}
    (drawn : Yields (text longest : Draw σ String) content) :
    content.length ≤ longest.toNat ∧ ∀ c ∈ content.toList, Text.isControl c = false := by
  obtain ⟨length, one, drawn⟩ := yields_bind drawn
  obtain ⟨chars, two, drawn⟩ := yields_bind drawn
  obtain ⟨exactly, each⟩ := repeated_yields two
  rw [yields_pure drawn, String.length_ofList, String.toList_ofList, exactly]
  exact ⟨below64_yields one, fun c member => char_yields (each c member)⟩

theorem digitChar_mem : ∀ digit < 16, Nat.digitChar digit ∈ Text.hexDigits := by
  decide

theorem variant_mem : ∀ rest < 0x40,
    Nat.digitChar ((0x80 + rest) / 16) ∈ ['8', '9', 'a', 'b'] := by
  decide

def bytePlaces (place : Nat) : List (List Char) :=
  if place = 6 then [['4'], Text.hexDigits]
  else if place = 8 then [['8', '9', 'a', 'b'], Text.hexDigits]
  else [Text.hexDigits, Text.hexDigits]

theorem byte_spelled (place : Nat) {byte : Nat} (small : byte < 256) :
    List.Forall₂ (· ∈ ·) (hexPair (stampVersion place byte)) (bytePlaces place) := by
  have low (digit : Nat) : Nat.digitChar (digit % 16) ∈ Text.hexDigits :=
    digitChar_mem _ (Nat.mod_lt _ (by decide))
  unfold stampVersion bytePlaces
  split
  · have version : (0x40 + byte % 0x10) / 16 = 4 := by omega
    refine .cons ?_ (.cons (low _) .nil)
    rw [version]
    decide
  · split
    · exact .cons (variant_mem _ (Nat.mod_lt _ (by decide))) (.cons (low _) .nil)
    · exact .cons (digitChar_mem _ (by omega)) (.cons (low _) .nil)

theorem bytes_spelled {bytes : List Nat} (small : ∀ byte ∈ bytes, byte < 256) (start : Nat) :
    List.Forall₂ (· ∈ ·) ((bytes.mapIdx fun place => stampVersion (start + place)).flatMap hexPair)
      ((List.range' start bytes.length).flatMap bytePlaces) := by
  induction bytes generalizing start with
  | nil => exact .nil
  | cons byte rest ih =>
    obtain ⟨first, others⟩ := List.forall_mem_cons.mp small
    have shifted := ih others (start + 1)
    simp only [Nat.add_assoc, Nat.add_comm 1] at shifted
    simp only [List.mapIdx_cons, List.length_cons, List.range'_succ, List.flatMap_cons]
    exact List.rel_append (byte_spelled start first) shifted

def hyphenated {α : Type} (hyphen : α) (digits : List α) : List α :=
  let group (start length : Nat) := (digits.drop start).take length
  group 0 8 ++ hyphen :: group 8 4 ++ hyphen :: group 12 4 ++ hyphen :: group 16 4 ++
    hyphen :: group 20 12

theorem hyphenated_spelled {digits : List Char} {places : List (List Char)}
    (spelled : List.Forall₂ (· ∈ ·) digits places) :
    List.Forall₂ (· ∈ ·) (hyphenated '-' digits) (hyphenated ['-'] places) := by
  have group (start length : Nat) : List.Forall₂ (· ∈ ·) ((digits.drop start).take length)
      ((places.drop start).take length) :=
    List.forall₂_take length (List.forall₂_drop start spelled)
  have between (start length : Nat) : List.Forall₂ (· ∈ ·)
      ('-' :: (digits.drop start).take length) (['-'] :: (places.drop start).take length) :=
    .cons (List.mem_singleton_self '-') (group start length)
  have two := List.rel_append (group 0 8) (between 8 4)
  have three := List.rel_append two (between 12 4)
  have four := List.rel_append three (between 16 4)
  exact List.rel_append four (between 20 12)

theorem identifierText_spelled {bytes : List Nat} (sixteen : bytes.length = 16)
    (small : ∀ byte ∈ bytes, byte < 256) : Text.IsIdentifier (identifierText bytes) := by
  have spelled := hyphenated_spelled (bytes_spelled small 0)
  have places : Text.identifierPlaces = hyphenated ['-'] ((List.range' 0 16).flatMap bytePlaces) := by
    decide
  simp only [Nat.zero_add, sixteen, ← places] at spelled
  rw [Text.IsIdentifier, identifierText, String.toList_ofList]
  exact spelled

theorem identifier_yields {content : String} (drawn : Yields (identifier : Draw σ String) content) :
    Text.IsIdentifier content := by
  obtain ⟨bytes, one, drawn⟩ := yields_bind drawn
  obtain ⟨sixteen, each⟩ := repeated_yields one
  rw [yields_pure drawn]
  apply identifierText_spelled sixteen
  intro byte member
  obtain ⟨word, _, drawn⟩ := yields_bind (each byte member)
  rw [yields_pure drawn]
  exact word.toUInt8.toNat_lt

end Random

end SchemaSampler
