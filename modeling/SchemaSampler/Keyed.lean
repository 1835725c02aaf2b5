-- A name that comes in again keeps its place and takes the later value.

namespace SchemaSampler

namespace Entries

def put (name : String) (value : α) : List (String × α) → List (String × α)
  | [] => [(name, value)]
  | (other, old) :: rest =>
    if other = name then (name, value) :: rest else (other, old) :: put name value rest

def names (entries : List (String × α)) : List String := entries.map Prod.fst

theorem names_put (name : String) (value : α) (entries : List (String × α)) :
    names (put name value entries) =
      if name ∈ names entries then names entries else names entries ++ [name] := by
  induction entries with
  | nil => simp [put, names]
  | cons entry rest ih =>
    obtain ⟨other, old⟩ := entry
    by_cases same : other = name
    · subst same; simp [put, names]
    · have apart : name ≠ other := fun equal => same equal.symm
      simp only [names] at ih
      by_cases inside : name ∈ List.map Prod.fst rest <;>
        simp [put, names, same, apart, ih, inside]

theorem nodup_put (name : String) (value : α) {entries : List (String × α)}
    (distinct : (names entries).Nodup) : (names (put name value entries)).Nodup := by
  rw [names_put]
  split
  · exact distinct
  · rename_i absent
    refine List.nodup_append.mpr ⟨distinct, by simp, ?_⟩
    intro first member second single equal
    simp only [List.mem_singleton] at single
    exact absent (single ▸ equal ▸ member)

theorem lookup_put (name : String) (value : α) (entries : List (String × α)) (asked : String) :
    (put name value entries).lookup asked =
      if asked = name then some value else entries.lookup asked := by
  induction entries with
  | nil =>
    by_cases asks : asked = name
    · simp [put, asks]
    · simp [put, List.lookup_cons, beq_false_of_ne asks, asks]
  | cons entry rest ih =>
    obtain ⟨other, old⟩ := entry
    by_cases same : other = name
    · subst same
      by_cases asks : asked = other
      · simp [put, asks]
      · simp [put, List.lookup_cons, beq_false_of_ne asks, asks]
    · by_cases asks : asked = other
      · subst asks; simp [put, same]
      · simp [put, List.lookup_cons, same, beq_false_of_ne asks, ih]

end Entries

structure Keyed (α : Type) where
  entries : List (String × α) := []
  distinct : (Entries.names entries).Nodup := by simp [Entries.names]

namespace Keyed

def empty : Keyed α where
  entries := []

instance : EmptyCollection (Keyed α) := ⟨empty⟩
instance : Inhabited (Keyed α) := ⟨empty⟩

theorem ext_entries {first second : Keyed α} (same : first.entries = second.entries) :
    first = second := by
  cases first; cases second; cases same; rfl

instance [DecidableEq α] : DecidableEq (Keyed α) := fun first second =>
  decidable_of_iff (first.entries = second.entries) ⟨ext_entries, fun same => same ▸ rfl⟩

def names (map : Keyed α) : List String := Entries.names map.entries

def values (map : Keyed α) : List α := map.entries.map Prod.snd

def get? (map : Keyed α) (name : String) : Option α := map.entries.lookup name

def contains (map : Keyed α) (name : String) : Bool := (map.get? name).isSome

def size (map : Keyed α) : Nat := map.entries.length

def isEmpty (map : Keyed α) : Bool := map.entries.isEmpty

def insert (map : Keyed α) (name : String) (value : α) : Keyed α where
  entries := Entries.put name value map.entries
  distinct := Entries.nodup_put name value map.distinct

def ofList (members : List (String × α)) : Keyed α :=
  members.foldl (fun map (name, value) => map.insert name value) empty

def mapValues (f : α → β) (map : Keyed α) : Keyed β where
  entries := map.entries.map fun (name, value) => (name, f value)
  distinct := by
    have same : Entries.names (map.entries.map fun (name, value) => (name, f value))
        = Entries.names map.entries := by
      simp [Entries.names, Function.comp_def]
    exact same ▸ map.distinct

theorem names_insert (map : Keyed α) (name : String) (value : α) :
    (map.insert name value).names =
      if name ∈ map.names then map.names else map.names ++ [name] :=
  Entries.names_put name value map.entries

theorem get?_insert (map : Keyed α) (name : String) (value : α) (asked : String) :
    (map.insert name value).get? asked = if asked = name then some value else map.get? asked :=
  Entries.lookup_put name value map.entries asked

end Keyed

end SchemaSampler
