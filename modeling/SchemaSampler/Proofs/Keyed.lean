import Mathlib.Data.List.Induction
import SchemaSampler.Keyed

namespace SchemaSampler

namespace Entries

theorem mem_names {entries : List (String × α)} {name : String} {value : α}
    (member : (name, value) ∈ entries) : name ∈ names entries :=
  List.mem_map.mpr ⟨_, member, rfl⟩

theorem mem_of_lookup {entries : List (String × α)} {name : String} {value : α}
    (found : entries.lookup name = some value) : (name, value) ∈ entries := by
  obtain ⟨before, after, rfl, _⟩ := List.lookup_eq_some_iff.mp found
  simp

theorem lookup_of_mem {entries : List (String × α)} (distinct : (names entries).Nodup)
    {name : String} {value : α} (member : (name, value) ∈ entries) :
    entries.lookup name = some value := by
  induction entries with
  | nil => cases member
  | cons entry rest ih =>
    obtain ⟨other, old⟩ := entry
    obtain ⟨fresh, distinctRest⟩ := List.nodup_cons.mp distinct
    rcases List.mem_cons.mp member with same | later
    · cases same; simp
    · have apart : name ≠ other := by
        rintro rfl
        exact fresh (mem_names later)
      simpa [List.lookup_cons, beq_false_of_ne apart] using ih distinctRest later

def gathered (members : List (String × α)) : List (String × α) :=
  members.foldl (fun entries (name, value) => put name value entries) []

theorem gathered_concat (members : List (String × α)) (name : String) (value : α) :
    gathered (members ++ [(name, value)]) = put name value (gathered members) := by
  simp [gathered]

theorem gathered_distinct (members : List (String × α)) : (names (gathered members)).Nodup := by
  induction members using List.reverseRecOn with
  | nil => exact List.nodup_nil
  | append_singleton members last ih =>
    rw [gathered_concat]
    exact nodup_put _ _ ih

-- Names stand where they first came in.
theorem names_gathered (members : List (String × α)) :
    names (gathered members) = (names members).eraseDups := by
  induction members using List.reverseRecOn with
  | nil => rfl
  | append_singleton members last ih =>
    obtain ⟨name, value⟩ := last
    have longer : names (members ++ [(name, value)]) = names members ++ [name] := List.map_append
    rw [gathered_concat, names_put, ih, longer, List.eraseDups_append]
    by_cases inside : name ∈ names members
    · rw [if_pos (List.mem_eraseDups.mpr inside)]
      simp [List.removeAll, inside]
    · rw [if_neg (mt List.mem_eraseDups.mp inside)]
      simp [List.removeAll, inside, List.eraseDups_cons]

-- Under every name stands the value that came in last.
theorem lookup_gathered (members : List (String × α)) (asked : String) :
    (gathered members).lookup asked = members.reverse.lookup asked := by
  induction members using List.reverseRecOn with
  | nil => rfl
  | append_singleton members last ih =>
    obtain ⟨name, value⟩ := last
    rw [gathered_concat, lookup_put, ih, List.reverse_concat, List.lookup_cons]
    by_cases same : asked = name
    · simp [same]
    · simp [same, beq_false_of_ne same]

theorem put_fresh {name : String} (value : α) {entries : List (String × α)}
    (fresh : name ∉ names entries) : put name value entries = entries ++ [(name, value)] := by
  induction entries with
  | nil => rfl
  | cons entry rest ih =>
    obtain ⟨other, old⟩ := entry
    obtain ⟨apart, later⟩ := not_or.mp (mt List.mem_cons.mpr fresh)
    rw [put, if_neg (Ne.symm apart), ih later, List.cons_append]

theorem gathered_of_distinct {members : List (String × α)} (distinct : (names members).Nodup) :
    gathered members = members := by
  induction members using List.reverseRecOn with
  | nil => rfl
  | append_singleton members last ih =>
    obtain ⟨name, value⟩ := last
    have longer : names (members ++ [(name, value)]) = names members ++ [name] := List.map_append
    rw [longer, List.nodup_append] at distinct
    obtain ⟨before, _, apart⟩ := distinct
    rw [gathered_concat, ih before, put_fresh]
    intro inside
    exact apart name inside name (by simp) rfl

theorem names_marked (listed : List String) :
    names (listed.map fun name => (name, ())) = listed := by
  rw [names, List.map_map]
  exact List.map_id listed

theorem eraseDups_distinct (listed : List String) : listed.eraseDups.Nodup := by
  have distinct := gathered_distinct (listed.map fun name => (name, ()))
  rwa [names_gathered, names_marked] at distinct

theorem eraseDups_of_distinct {listed : List String} (distinct : listed.Nodup) :
    listed.eraseDups = listed := by
  have marked := names_marked listed
  rw [← marked, ← names_gathered, gathered_of_distinct (marked.symm ▸ distinct)]

theorem eraseDups_eraseDups_append (before after : List String) :
    (before.eraseDups ++ after).eraseDups = (before ++ after).eraseDups := by
  have same : after.removeAll before.eraseDups = after.removeAll before := by
    simp [List.removeAll, List.mem_eraseDups]
  rw [List.eraseDups_append, List.eraseDups_append, same,
    eraseDups_of_distinct (eraseDups_distinct before)]

theorem eraseDups_append_of_distinct {before after : List String} (first : before.Nodup)
    (second : after.Nodup) :
    (before ++ after).eraseDups = before ++ after.filter (· ∉ before) := by
  have fresh : after.removeAll before = after.filter (· ∉ before) := by
    simp [List.removeAll]
  rw [List.eraseDups_append, eraseDups_of_distinct first, fresh,
    eraseDups_of_distinct (second.sublist List.filter_sublist)]

theorem eq_of_names {first second : List (String × α)} (same : names first = names second)
    (distinct : (names first).Nodup)
    (inside : ∀ name value, (name, value) ∈ first → (name, value) ∈ second) : first = second := by
  induction first generalizing second with
  | nil => exact (List.map_eq_nil_iff.mp same.symm).symm
  | cons entry rest ih =>
    obtain ⟨name, value⟩ := entry
    cases second with
    | nil => cases same
    | cons other others =>
      obtain ⟨agree, further⟩ := List.cons.inj same
      obtain ⟨fresh, distinctRest⟩ := List.nodup_cons.mp distinct
      have head : other = (name, value) := by
        rcases List.mem_cons.mp (inside name value List.mem_cons_self) with here | later
        · exact here.symm
        · exact absurd (further ▸ mem_names later) fresh
      rw [head, ih further distinctRest]
      intro asked held member
      rcases List.mem_cons.mp (inside asked held (List.mem_cons_of_mem _ member)) with here | later
      · rw [head] at here
        cases here
        exact absurd (mem_names member) fresh
      · exact later

end Entries

namespace Keyed

variable {map : Keyed α} {name : String} {value : α}

theorem get?_eq_some_iff : map.get? name = some value ↔ (name, value) ∈ map.entries :=
  ⟨Entries.mem_of_lookup, Entries.lookup_of_mem map.distinct⟩

theorem mem_names_of_get? (found : map.get? name = some value) : name ∈ map.names :=
  Entries.mem_names (get?_eq_some_iff.mp found)

theorem get?_of_mem_names (member : name ∈ map.names) : ∃ value, map.get? name = some value := by
  obtain ⟨⟨_, value⟩, inside, rfl⟩ := List.mem_map.mp member
  exact ⟨value, get?_eq_some_iff.mpr inside⟩

theorem mem_names_iff : name ∈ map.names ↔ ∃ value, map.get? name = some value :=
  ⟨get?_of_mem_names, fun ⟨_, found⟩ => mem_names_of_get? found⟩

theorem mem_values_of_get? (found : map.get? name = some value) : value ∈ map.values :=
  List.mem_map.mpr ⟨_, get?_eq_some_iff.mp found, rfl⟩

theorem get?_of_mem_values (member : value ∈ map.values) : ∃ name, map.get? name = some value := by
  obtain ⟨⟨name, _⟩, inside, rfl⟩ := List.mem_map.mp member
  exact ⟨name, get?_eq_some_iff.mpr inside⟩

theorem contains_iff : map.contains name = true ↔ name ∈ map.names := by
  rw [contains, Option.isSome_iff_exists]
  constructor
  · rintro ⟨value, found⟩
    exact mem_names_of_get? found
  · exact get?_of_mem_names

theorem names_insert_eraseDups (map : Keyed α) (name : String) (value : α) :
    (map.insert name value).names = (map.names ++ [name]).eraseDups := by
  have distinct : map.names.Nodup := map.distinct
  rw [names_insert, Entries.eraseDups_append_of_distinct distinct (by simp)]
  by_cases inside : name ∈ map.names <;> simp [inside]

theorem entries_ofList (members : List (String × α)) :
    (ofList members).entries = Entries.gathered members :=
  (List.foldl_hom Keyed.entries fun _ _ => rfl).symm

theorem ofList_entries (map : Keyed α) : ofList map.entries = map := by
  apply ext_entries
  rw [entries_ofList, Entries.gathered_of_distinct map.distinct]

end Keyed

end SchemaSampler
