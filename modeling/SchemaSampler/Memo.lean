import SchemaSampler.DepthState
import SchemaSampler.Keyed
import SchemaSampler.Strategy
import SchemaSampler.Trie

namespace SchemaSampler

-- What an object type compiles to hangs on the path by its depth state alone.
structure MemoKey where
  type : String
  state : DepthState
  deriving DecidableEq, Repr

structure Memo where
  tables : Keyed (Trie (String × Nat) Strategy) := ∅

namespace Memo

def table (memo : Memo) (type : String) : Trie (String × Nat) Strategy :=
  (memo.tables.get? type).getD ∅

def get? (memo : Memo) (key : MemoKey) : Option Strategy := (memo.table key.type).get? key.state

def insert (memo : Memo) (key : MemoKey) (strategy : Strategy) : Memo where
  tables := memo.tables.insert key.type ((memo.table key.type).insert key.state strategy)

def size (memo : Memo) : Nat :=
  memo.tables.values.foldr (fun table others => table.size + others) 0

theorem get?_nothing (key : MemoKey) : ({} : Memo).get? key = none :=
  Trie.get?_empty key.state

theorem table_insert (memo : Memo) (key : MemoKey) (strategy : Strategy) (type : String) :
    (memo.insert key strategy).table type =
      if type = key.type then (memo.table key.type).insert key.state strategy
      else memo.table type := by
  unfold insert table
  rw [Keyed.get?_insert]
  split <;> rfl

theorem get?_insert (memo : Memo) (key : MemoKey) (strategy : Strategy) (asked : MemoKey) :
    (memo.insert key strategy).get? asked =
      if asked = key then some strategy else memo.get? asked := by
  obtain ⟨type, state⟩ := key
  obtain ⟨other, askedState⟩ := asked
  unfold get?
  rw [table_insert]
  by_cases same : other = type
  · subst same; simp [Trie.get?_insert]
  · simp [same]

theorem entries_put_size (type : String) (table : Trie (String × Nat) Strategy)
    (entries : List (String × Trie (String × Nat) Strategy)) :
    ((Entries.put type table entries).map Prod.snd).foldr
        (fun table others => table.size + others) 0 + ((entries.lookup type).getD ∅).size =
      (entries.map Prod.snd).foldr (fun table others => table.size + others) 0 + table.size := by
  induction entries with
  | nil => simp [Entries.put, EmptyCollection.emptyCollection, Trie.size]
  | cons entry rest ih =>
    obtain ⟨other, old⟩ := entry
    by_cases same : other = type
    · subst same
      simp only [Entries.put, ↓reduceIte, List.lookup_cons_self, Option.getD_some, List.map_cons,
        List.foldr_cons]
      omega
    · have apart : (type == other) = false := beq_false_of_ne fun equal => same equal.symm
      simp only [Entries.put, same, ↓reduceIte, List.lookup_cons, apart, List.map_cons,
        List.foldr_cons]
      omega

theorem size_insert {memo : Memo} {key : MemoKey} (strategy : Strategy)
    (absent : memo.get? key = none) : (memo.insert key strategy).size = memo.size + 1 := by
  have grown := Trie.size_insert (memo.table key.type) strategy absent
  have sizes := entries_put_size key.type ((memo.table key.type).insert key.state strategy)
    memo.tables.entries
  change (memo.insert key strategy).size + (memo.table key.type).size = memo.size + _ at sizes
  omega

end Memo

end SchemaSampler
