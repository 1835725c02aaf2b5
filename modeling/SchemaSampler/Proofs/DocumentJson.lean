import Mathlib.Data.List.Basic
import SchemaSampler.Document.Value
import SchemaSampler.Proofs.Keyed

namespace SchemaSampler.Document

namespace Value

-- The items of a sequence and the keys and values of a mapping may be assumed.
theorem induct {motive : Value → Prop} (null : motive .null)
    (bool : ∀ value, motive (.bool value)) (int : ∀ value minus, motive (.int value minus))
    (float : ∀ value, motive (.float value)) (text : ∀ content, motive (.text content))
    (seq : ∀ items, (∀ item ∈ items, motive item) → motive (.seq items))
    (map : ∀ members, (∀ key held, (key, held) ∈ members → motive key ∧ motive held) →
      motive (.map members))
    (tagged : ∀ tag value, motive value → motive (.tagged tag value)) (value : Value) :
    motive value := by
  refine @Value.rec motive (fun items => ∀ item ∈ items, motive item)
    (fun members => ∀ key held, (key, held) ∈ members → motive key ∧ motive held)
    (fun member => motive member.1 ∧ motive member.2)
    null bool int float text seq map tagged ?_ ?_ ?_ ?_ (fun _ _ key held => ⟨key, held⟩) value
  · intro item inside
    cases inside
  · intro first rest one others item inside
    rcases List.mem_cons.mp inside with rfl | later
    · exact one
    · exact others item later
  · intro key held inside
    cases inside
  · intro first rest one others key held inside
    rcases List.mem_cons.mp inside with rfl | later
    · exact one
    · exact others key held later

mutual

def bare : Value → Value
  | seq items => .seq (bareItems items)
  | map members => .map (bareMembers members)
  | tagged _ value => bare value
  | value => value

def bareItems : List Value → List Value
  | [] => []
  | item :: rest => bare item :: bareItems rest

def bareMembers : List (Value × Value) → List (Value × Value)
  | [] => []
  | (key, value) :: rest => (bare key, bare value) :: bareMembers rest

end

def scalarText? : Value → Option String
  | null => some "null"
  | bool value => some (toString value)
  | int value _ => some (toString value)
  | float value => some (Decimal.Layout.yamlKey.render value)
  | text content => some content
  | tagged _ value => value.scalarText?
  | seq _ | map _ => none

theorem bareItems_eq (items : List Value) : bareItems items = items.map bare := by
  induction items with
  | nil => rfl
  | cons item rest ih => rw [bareItems, ih, List.map_cons]

theorem bareMembers_eq (members : List (Value × Value)) :
    bareMembers members = members.map (Prod.map bare bare) := by
  induction members with
  | nil => rfl
  | cons member rest ih => rw [bareMembers, ih, List.map_cons]; rfl

theorem toJsonItems_eq (items : List Value) : toJsonItems items = items.map toJson := by
  induction items with
  | nil => rfl
  | cons item rest ih => rw [toJsonItems, ih, List.map_cons]

def named? (member : Value × Value) : Option (String × Json) :=
  member.1.keyText?.map fun name => (name, member.2.toJson)

theorem toJsonMembers_eq (members : List (Value × Value)) :
    toJsonMembers members = members.filterMap named? := by
  induction members with
  | nil => rfl
  | cons member rest ih =>
    obtain ⟨key, value⟩ := member
    rw [toJsonMembers, ih]
    cases text : key.keyText? with
    | none => rw [List.filterMap_cons_none (by simp [named?, text])]
    | some name =>
      have kept : named? (key, value) = some (name, value.toJson) := by simp [named?, text]
      rw [List.filterMap_cons_some kept]

inductive LastUnder (name? : Value → Option String) (name : String) :
    List (Value × Value) → Value → Prop where
  | last (here : name? key = some name)
      (later : ∀ member ∈ rest, name? member.1 ≠ some name) :
      LastUnder name? name ((key, held) :: rest) held
  | before (found : LastUnder name? name rest held) :
      LastUnder name? name (member :: rest) held

-- Each name that occurs has one member, where it first came in, with what the last value became.
inductive Becomes (name? : Value → Option String) : Value → Json → Prop where
  | null : Becomes name? .null .null
  | bool : Becomes name? (.bool value) (.bool value)
  | int : Becomes name? (.int value minus) (.ofInt value)
  | float : Becomes name? (.float value) (.ofFloat value)
  | text : Becomes name? (.text content) (.str content)
  | seq (long : items.length = results.length)
      (each : ∀ (place : Nat) item json, items[place]? = some item → results[place]? = some json →
        Becomes name? item json) : Becomes name? (.seq items) (.arr results)
  | map (ordered : Entries.names entries =
        (members.filterMap fun member => name? member.1).eraseDups)
      (each : ∀ name held json, LastUnder name? name members held → (name, json) ∈ entries →
        Becomes name? held json) :
      Becomes name? (.map members) (.obj entries)
  | tagged (inner : Becomes name? value json) : Becomes name? (.tagged tag value) json

-- Keys that have the text of a scalar and yet none in an object.
inductive Lost : Value → Prop where
  | null : Lost .null
  | tagged (scalar : key.scalarText?.isSome) : Lost (.tagged tag key)

inductive Loses : Value → Prop where
  | here (inside : (key, held) ∈ members) (lost : Lost key) : Loses (.map members)
  | held (inside : (key, held) ∈ members) (kept : key.keyText?.isSome) (deeper : Loses held) :
      Loses (.map members)
  | item (inside : item ∈ items) (deeper : Loses item) : Loses (.seq items)
  | tagged (deeper : Loses value) : Loses (.tagged tag value)

theorem lost_silent {key : Value} (lost : Lost key) : key.keyText? = none := by
  cases lost <;> rfl

theorem keyText?_of_kept {key : Value} (kept : ¬ Lost key) : key.keyText? = key.scalarText? := by
  cases key with
  | null => exact absurd .null kept
  | tagged tag inner =>
    exact (Option.not_isSome_iff_eq_none.mp fun scalar => kept (.tagged scalar)).symm
  | bool value => cases value <;> rfl
  | _ => rfl

theorem bare_silent {key : Value} (silent : key.scalarText? = none) :
    key.bare.keyText? = none := by
  induction key using induct with
  | tagged tag inner ih => exact ih silent
  | seq items => rfl
  | map members => rfl
  | _ => cases silent

theorem bare_keyText? {key : Value} (kept : ¬ Lost key) :
    key.bare.keyText? = key.keyText? := by
  cases key with
  | null => exact absurd .null kept
  | tagged tag inner =>
    apply bare_silent
    exact Option.not_isSome_iff_eq_none.mp fun scalar => kept (.tagged scalar)
  | _ => rfl

variable {name? : Value → Option String} {name : String} {members : List (Value × Value)}
  {held : Value}

theorem named?_eq_some {key : Value} {json : Json} :
    named? (key, held) = some (name, json) ↔ key.keyText? = some name ∧ held.toJson = json := by
  simp [named?]

theorem names_kept (members : List (Value × Value)) :
    Entries.names (members.filterMap named?) =
      members.filterMap fun member => member.1.keyText? := by
  rw [Entries.names, List.map_filterMap]
  congr 1
  funext member
  cases text : member.1.keyText? <;> simp [named?, text]

theorem lookup_kept_none
    (absent : ∀ member ∈ members, member.1.keyText? ≠ some name) :
    (members.filterMap named?).reverse.lookup name = none := by
  rw [List.lookup_eq_none_iff]
  rintro ⟨other, json⟩ entry
  obtain ⟨member, inside, kept⟩ := List.mem_filterMap.mp (List.mem_reverse.mp entry)
  obtain ⟨text, _⟩ := named?_eq_some.mp kept
  have apart : name ≠ other := by
    rintro rfl
    exact absent member inside text
  simp [apart]

theorem lookup_kept (under : LastUnder keyText? name members held) :
    (members.filterMap named?).reverse.lookup name = some held.toJson := by
  induction under with
  | @last key rest held here later =>
    have kept : named? (key, held) = some (name, held.toJson) := named?_eq_some.mpr ⟨here, rfl⟩
    rw [List.filterMap_cons_some kept, List.reverse_cons, List.lookup_append,
      lookup_kept_none later, Option.none_or, List.lookup_cons_self]
  | @before rest held member found ih =>
    cases kept : named? member with
    | none => rwa [List.filterMap_cons_none kept]
    | some entry =>
      rw [List.filterMap_cons_some kept, List.reverse_cons, List.lookup_append, ih, Option.some_or]

theorem lastUnder_member (under : LastUnder name? name members held) :
    ∃ key, (key, held) ∈ members ∧ name? key = some name := by
  induction under with
  | last here later => exact ⟨_, List.mem_cons_self, here⟩
  | before found ih =>
    obtain ⟨key, inside, text⟩ := ih
    exact ⟨key, List.mem_cons_of_mem _ inside, text⟩

theorem exists_lastUnder
    (occurs : name ∈ members.filterMap fun member => name? member.1) :
    ∃ held, LastUnder name? name members held := by
  induction members with
  | nil => cases occurs
  | cons member rest ih =>
    by_cases later : name ∈ rest.filterMap fun member => name? member.1
    · obtain ⟨held, found⟩ := ih later
      exact ⟨held, .before found⟩
    · obtain ⟨key, held⟩ := member
      obtain ⟨found, inside, text⟩ := List.mem_filterMap.mp occurs
      rcases List.mem_cons.mp inside with rfl | further
      · refine ⟨held, .last text fun other behind same => ?_⟩
        exact later (List.mem_filterMap.mpr ⟨other, behind, same⟩)
      · exact absurd (List.mem_filterMap.mpr ⟨found, further, text⟩) later

theorem toJson_becomes (value : Value) : Becomes keyText? value value.toJson := by
  induction value using induct with
  | null => exact .null
  | bool value => exact .bool
  | int value minus => exact .int
  | float value => exact .float
  | text content => exact .text
  | seq items ih =>
    rw [toJson, toJsonItems_eq]
    refine .seq (List.length_map toJson).symm fun place item json found converted => ?_
    rw [List.getElem?_map, found] at converted
    cases converted
    exact ih item (List.mem_of_getElem? found)
  | map members ih =>
    rw [toJson, toJsonMembers_eq]
    apply Becomes.map
    · rw [← names_kept]
      exact Entries.names_gathered _
    · intro name held json under entry
      have found := Entries.lookup_of_mem (Entries.gathered_distinct _) entry
      rw [Entries.lookup_gathered, lookup_kept under] at found
      cases found
      obtain ⟨key, inside, _⟩ := lastUnder_member under
      exact (ih key held inside).2
  | tagged tag value ih => exact .tagged ih

theorem becomes_unique {value : Value} {first second : Json}
    (one : Becomes name? value first) (other : Becomes name? value second) : first = second := by
  induction value using induct generalizing first second with
  | seq items ih =>
    cases one with
    | seq long each =>
    cases other with
    | seq tall every =>
      congr 1
      apply List.ext_getElem (long.symm.trans tall)
      intro place inFirst inSecond
      have found := List.getElem?_eq_getElem (long.symm ▸ inFirst)
      exact ih _ (List.mem_of_getElem? found)
        (each place _ _ found (List.getElem?_eq_getElem inFirst))
        (every place _ _ found (List.getElem?_eq_getElem inSecond))
  | map members ih =>
    cases one with
    | @map first _ ordered each =>
    cases other with
    | @map second _ arranged every =>
      congr 1
      apply Entries.eq_of_names (ordered.trans arranged.symm)
        (ordered ▸ Entries.eraseDups_distinct _)
      intro name json inFirst
      have named := Entries.mem_names inFirst
      rw [ordered] at named
      obtain ⟨held, under⟩ := exists_lastUnder (List.mem_eraseDups.mp named)
      rw [← arranged] at named
      obtain ⟨⟨_, found⟩, inSecond, rfl⟩ := List.mem_map.mp named
      obtain ⟨key, inside, _⟩ := lastUnder_member under
      have same : json = found := (ih key held inside).2 (each _ held json under inFirst)
        (every _ held found under inSecond)
      rwa [same]
  | tagged tag value ih =>
    cases one with
    | tagged inner =>
    cases other with
    | tagged within => exact ih inner within
  | _ => cases one; cases other; rfl

theorem lastUnder_congr {other? : Value → Option String}
    (agree : ∀ key held, (key, held) ∈ members → name? key = other? key)
    (under : LastUnder name? name members held) : LastUnder other? name members held := by
  induction under with
  | @last key rest held here later =>
    refine .last ((agree _ _ List.mem_cons_self).symm.trans here) ?_
    intro member behind same
    exact later member behind ((agree _ _ (List.mem_cons_of_mem _ behind)).trans same)
  | before found ih =>
    exact .before (ih fun key held inside => agree key held (List.mem_cons_of_mem _ inside))

theorem becomes_scalar {value : Value} {json : Json} (whole : ¬ Loses value)
    (becomes : Becomes keyText? value json) : Becomes scalarText? value json := by
  induction value using induct generalizing json with
  | seq items ih =>
    cases becomes with
    | seq long each =>
      refine .seq long fun place item json found converted => ?_
      have inside := List.mem_of_getElem? found
      exact ih item inside (fun deeper => whole (.item inside deeper))
        (each place item json found converted)
  | map members ih =>
    have agree : ∀ key held, (key, held) ∈ members → key.scalarText? = key.keyText? :=
      fun key held inside => (keyText?_of_kept fun lost => whole (.here inside lost)).symm
    cases becomes with
    | map ordered each =>
      apply Becomes.map
      · rw [ordered]
        congr 1
        exact List.filterMap_congr fun member inside => (agree _ member.2 inside).symm
      · intro name held json under entry
        have under := lastUnder_congr agree under
        obtain ⟨key, inside, text⟩ := lastUnder_member under
        have deeper : ¬ Loses held :=
          fun deeper => whole (.held inside (by rw [text]; rfl) deeper)
        exact (ih key held inside).2 deeper (each name held json under entry)
  | tagged tag value ih =>
    cases becomes with
    | tagged inner => exact .tagged (ih (fun deeper => whole (.tagged deeper)) inner)
  | _ => cases becomes; constructor

theorem bare_toJson {value : Value} (whole : ¬ Loses value) :
    value.bare.toJson = value.toJson := by
  induction value using induct with
  | seq items ih =>
    rw [bare, toJson, toJson, bareItems_eq, toJsonItems_eq, toJsonItems_eq, List.map_map]
    congr 1
    apply List.map_congr_left
    intro item inside
    exact ih item inside fun deeper => whole (.item inside deeper)
  | map members ih =>
    rw [bare, toJson, toJson, bareMembers_eq, toJsonMembers_eq, toJsonMembers_eq,
      List.filterMap_map]
    congr 1
    apply List.filterMap_congr
    rintro ⟨key, held⟩ inside
    have text := bare_keyText? fun lost => whole (.here inside lost)
    cases kept : key.keyText? with
    | none => simp [named?, text, kept]
    | some name =>
      have same := (ih key held inside).2 fun deeper => whole (.held inside (by simp [kept]) deeper)
      simp [named?, text, kept, same]
  | tagged tag value ih => exact ih fun deeper => whole (.tagged deeper)
  | _ => rfl

-- Keys have the text of their scalar, save null and what has a tag; without any tags the JSON is
-- the same.
theorem toJson_exact (value : Value) :
    (∀ json, Becomes keyText? value json ↔ json = value.toJson) ∧
    (∀ key : Value, (Lost key → key.keyText? = none) ∧
      (¬ Lost key → key.keyText? = key.scalarText?)) ∧
    (¬ Loses value → value.toJson = value.bare.toJson ∧
      ∀ json, Becomes scalarText? value json ↔ json = value.toJson) := by
  refine ⟨fun json => ⟨?_, ?_⟩, fun key => ⟨lost_silent, keyText?_of_kept⟩,
    fun whole => ⟨(bare_toJson whole).symm, ?_⟩⟩
  · intro becomes
    exact becomes_unique becomes (toJson_becomes value)
  · rintro rfl
    exact toJson_becomes value
  · have promised := becomes_scalar whole (toJson_becomes value)
    intro json
    constructor
    · intro becomes
      exact becomes_unique becomes promised
    · rintro rfl
      exact promised

def album : Value :=
  .map [(.text "name", .tagged "person" (.text "Alice")), (.int 1 false, .text "one"),
    (.seq [], .null), (.text "1", .seq [.tagged "side" (.bool true), .null])]

theorem album_whole : ¬ Loses album := by
  intro loses
  rcases loses with ⟨inside, lost⟩ | ⟨inside, _, deeper⟩
  · simp only [List.mem_cons, Prod.mk.injEq, List.not_mem_nil, or_false] at inside
    rcases inside with ⟨rfl, _⟩ | ⟨rfl, _⟩ | ⟨rfl, _⟩ | ⟨rfl, _⟩ <;> cases lost
  · simp only [List.mem_cons, Prod.mk.injEq, List.not_mem_nil, or_false] at inside
    rcases inside with ⟨_, rfl⟩ | ⟨_, rfl⟩ | ⟨_, rfl⟩ | ⟨_, rfl⟩
    · rcases deeper with _ | _ | _ | ⟨⟨⟩⟩
    · cases deeper
    · cases deeper
    · rcases deeper with _ | _ | ⟨inside, deeper⟩
      simp only [List.mem_cons, List.not_mem_nil, or_false] at inside
      rcases inside with rfl | rfl
      · rcases deeper with _ | _ | _ | ⟨⟨⟩⟩
      · cases deeper

theorem album_exact : ¬ Loses album ∧ album.toJson = album.bare.toJson ∧
    Becomes scalarText? album
      (.obj [("name", .str "Alice"), ("1", .arr [.bool true, .null])]) := by
  obtain ⟨untagged, promised⟩ := (toJson_exact album).2.2 album_whole
  exact ⟨album_whole, untagged, (promised _).mpr rfl⟩

def stamped : Value := .map [(.tagged "t" (.text "a"), .int 1 false)]

-- The tag on a key takes its member away.
theorem stamped_key_lost : stamped.toJson ≠ stamped.bare.toJson ∧
    ¬ Becomes scalarText? stamped stamped.toJson := by
  constructor
  · intro same
    cases same
  · intro becomes
    cases becomes with
    | map ordered each => cases ordered

end Value

end SchemaSampler.Document
