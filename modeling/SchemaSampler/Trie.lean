-- Keys with a common start share it, so that a look-up does not compare whole keys.

namespace SchemaSampler

inductive Trie (κ α : Type) where
  | empty
  | done (value : α) (beside : Trie κ α)
  | branch (step : κ) (below beside : Trie κ α)

namespace Trie

variable {κ α : Type} [DecidableEq κ]

instance : EmptyCollection (Trie κ α) := ⟨empty⟩
instance : Inhabited (Trie κ α) := ⟨empty⟩

def get? (table : Trie κ α) (key : List κ) : Option α :=
  match table, key with
  | empty, _ => none
  | done value _, [] => some value
  | done _ beside, key => beside.get? key
  | branch _ _ beside, [] => beside.get? []
  | branch other below beside, step :: rest =>
    if step = other then below.get? rest else beside.get? (step :: rest)

def single (value : α) : List κ → Trie κ α
  | [] => done value empty
  | step :: rest => branch step (single value rest) empty

def insert (table : Trie κ α) (key : List κ) (value : α) : Trie κ α :=
  match table, key with
  | empty, key => single value key
  | done _ beside, [] => done value beside
  | done old beside, key => done old (beside.insert key value)
  | branch other below beside, [] => branch other below (beside.insert [] value)
  | branch other below beside, step :: rest =>
    if step = other then branch other (below.insert rest value) beside
    else branch other below (beside.insert (step :: rest) value)

def size : Trie κ α → Nat
  | empty => 0
  | done _ beside => beside.size + 1
  | branch _ below beside => below.size + beside.size

theorem get?_empty (key : List κ) : (∅ : Trie κ α).get? key = none := by
  cases key <;> rfl

theorem get?_single (value : α) (key asked : List κ) :
    (single value key).get? asked = if asked = key then some value else none := by
  induction key generalizing asked with
  | nil => cases asked <;> simp [single, get?]
  | cons step rest ih =>
    cases asked with
    | nil => simp [single, get?]
    | cons first others =>
      by_cases same : first = step
      · subst same; simp [single, get?, ih]
      · simp [single, get?, same]

theorem get?_insert (table : Trie κ α) (key : List κ) (value : α) (asked : List κ) :
    (table.insert key value).get? asked = if asked = key then some value else table.get? asked := by
  induction table generalizing key asked with
  | empty => simp [insert, get?_single, get?]
  | done old beside ih =>
    cases key <;> cases asked <;> simp [insert, get?, ih]
  | branch other below beside ihBelow ihBeside =>
    cases key with
    | nil => cases asked <;> simp [insert, get?, ihBeside]
    | cons step rest =>
      cases asked with
      | nil => by_cases same : step = other <;> simp [insert, get?, same, ihBeside]
      | cons first others =>
        by_cases same : step = other
        · subst same
          by_cases asks : first = step
          · subst asks; simp [insert, get?, ihBelow]
          · simp [insert, get?, asks]
        · by_cases asks : first = other
          · subst asks
            have apart : first ≠ step := fun equal => same equal.symm
            simp [insert, get?, same, apart]
          · simp [insert, get?, same, asks, ihBeside]

omit [DecidableEq κ] in
theorem size_single (value : α) (key : List κ) : (single value key).size = 1 := by
  induction key with
  | nil => rfl
  | cons step rest ih => rw [single, size, ih, size]

theorem size_insert (table : Trie κ α) {key : List κ} (value : α)
    (absent : table.get? key = none) : (table.insert key value).size = table.size + 1 := by
  induction table generalizing key with
  | empty => rw [insert, size_single, size]
  | done old beside ih =>
    cases key with
    | nil => cases absent
    | cons step rest => rw [insert, size, size, ih absent]; nofun
  | branch other below beside ihBelow ihBeside =>
    cases key with
    | nil => rw [insert, size, size, ihBeside absent, Nat.add_assoc]
    | cons step rest =>
      rw [get?] at absent
      rw [insert]
      by_cases same : step = other
      · rw [if_pos same] at absent ⊢
        rw [size, size, ihBelow absent]
        omega
      · rw [if_neg same] at absent ⊢
        rw [size, size, ihBeside absent, Nat.add_assoc]

end Trie

end SchemaSampler
