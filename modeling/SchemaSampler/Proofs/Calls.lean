import SchemaSampler.Proofs.DepthState
import SchemaSampler.Proofs.Descent

-- Every entry into an object type spends a part of the budgets, so each chain of calls ends.

namespace SchemaSampler

structure Place where
  path : List String
  ref : TypeRef

namespace Setup

open Compile

def objectBody (setup : Setup) (call : Place → Compile (Option Strategy)) (path : List String)
    (name : String) : Compile (Option Strategy) :=
  if setup.policy.mayEnter name path then
    some <$> object ⟨name, .ofPath path⟩ path.length do
      let type ← Compile.ofSchema (setup.schema.object name)
      let fields ← fields name (fun ref => call ⟨path ++ [name], ref⟩) type.fields.entries
      tell (.objectCompiled name path.length fields.length)
      return .record fields
  else spent path name

-- Without any bound on the steps: whatever stands below is compiled by `call`.
def refBody (setup : Setup) (call : Place → Compile (Option Strategy)) :
    Place → Compile (Option Strategy)
  | ⟨path, .nonNull inner⟩ => call ⟨path, inner⟩
  | ⟨path, .list inner⟩ =>
    let longest := setup.policy.maxWidth inner.base
    if longest = some 0 then do
      let _ ← Compile.ofSchema (setup.schema.classifyRef inner)
      return some .emptyList
    else do
      match ← call ⟨path, inner⟩ with
      | some element => return some (.listOf element longest)
      | none => return some .emptyList
  | ⟨path, .named name⟩ => do
    match ← Compile.ofSchema (setup.schema.classify name) with
    | .enum => some <$> setup.enum name
    | .scalar => some <$> setup.scalar name
    | .object => setup.objectBody call path name
    | .query => throw (.schema (.unknownRef name))

inductive Call (setup : Setup) : Place → Place → Prop where
  | nonNull : Call setup ⟨path, .nonNull wrapped⟩ ⟨path, wrapped⟩
  | element (wide : setup.policy.maxWidth wrapped.base ≠ some 0) :
      Call setup ⟨path, .list wrapped⟩ ⟨path, wrapped⟩
  | field (isObject : setup.schema.classify name = .ok .object)
      (opened : setup.policy.mayEnter name path = true)
      (found : setup.schema.object name = .ok type) (member : field ∈ type.fields.entries) :
      Call setup ⟨path, .named name⟩ ⟨path ++ [name], field.2.ref⟩

inductive Reached (setup : Setup) (root : TypeRef) : Place → Prop where
  | root : Reached setup root ⟨[], root⟩
  | call (here : Reached setup root place) (calls : setup.Call place next) :
      Reached setup root next

variable {setup : Setup} {path : List String} {name : String}

theorem ofSchema_bind_congr {result : Except SchemaError α} {next other : α → Compile β}
    (same : ∀ value, result = .ok value → next value = other value) :
    (Compile.ofSchema result >>= next) = (Compile.ofSchema result >>= other) := by
  cases result with
  | error cause => rfl
  | ok value => exact same value rfl

theorem fields_congr {first second : TypeRef → Compile (Option Strategy)}
    {entries : List (String × FieldDef)} (type : String)
    (same : ∀ entry ∈ entries, first entry.2.ref = second entry.2.ref) :
    fields type first entries = fields type second entries := by
  induction entries with
  | nil => rfl
  | cons entry rest ih =>
    have others := ih fun entry later => same entry (List.mem_cons_of_mem _ later)
    unfold fields
    rw [same entry (by simp), others]

theorem ref_congr {first second : String → Compile (Option Strategy)}
    (same : ∀ name, setup.schema.classify name = .ok .object → first name = second name)
    (ref : TypeRef) : setup.ref first ref = setup.ref second ref := by
  induction ref with
  | nonNull inner ih => exact ih
  | list inner ih =>
    unfold Setup.ref
    rw [ih]
  | named name =>
    unfold Setup.ref
    refine ofSchema_bind_congr fun kind classified => ?_
    cases kind with
    | object => exact same name classified
    | enum => rfl
    | scalar => rfl
    | query => rfl

theorem objectBody_congr {call other : Place → Compile (Option Strategy)}
    (same : ∀ type, setup.policy.mayEnter name path = true → setup.schema.object name = .ok type →
      ∀ field ∈ type.fields.entries,
        call ⟨path ++ [name], field.2.ref⟩ = other ⟨path ++ [name], field.2.ref⟩) :
    setup.objectBody call path name = setup.objectBody other path name := by
  unfold objectBody
  by_cases opened : setup.policy.mayEnter name path = true
  · rw [if_pos opened, if_pos opened]
    refine congrArg (fun make => some <$> object ⟨name, .ofPath path⟩ path.length make) ?_
    refine ofSchema_bind_congr fun type found => ?_
    have each := same type opened found
    exact congrArg (fun fields => fields >>= _) (fields_congr name each)
  · rw [if_neg opened, if_neg opened]

theorem refBody_congr {call other : Place → Compile (Option Strategy)} {place : Place}
    (same : ∀ next, setup.Call place next → call next = other next) :
    setup.refBody call place = setup.refBody other place := by
  obtain ⟨path, ref⟩ := place
  cases ref with
  | nonNull inner => exact same _ .nonNull
  | list inner =>
    unfold refBody
    by_cases empty : setup.policy.maxWidth inner.base = some 0
    · simp only [empty, ↓reduceIte]
    · dsimp only
      rw [same _ (.element empty)]
  | named name =>
    unfold refBody
    refine ofSchema_bind_congr fun kind classified => ?_
    cases kind with
    | object =>
      exact objectBody_congr fun type opened found field member =>
        same _ (.field classified opened found member)
    | enum => rfl
    | scalar => rfl
    | query => rfl

theorem enter_succ (room : Nat) (path : List String) (name : String) :
    setup.enter (room + 1) path name = setup.objectBody
      (fun place => setup.ref (setup.enter room place.path) place.ref) path name := rfl

theorem objectBody_shut {call : Place → Compile (Option Strategy)}
    (shut : ¬ setup.policy.mayEnter name path = true) :
    setup.objectBody call path name = spent path name := if_neg shut

theorem enter_enough {room more : Nat} (enough : setup.left path ≤ room)
    (plenty : setup.left path ≤ more) (isObject : setup.schema.classify name = .ok .object) :
    setup.enter room path name = setup.enter more path name := by
  -- where a bound is used up, no budget is left, and both bounds refuse the type
  induction room generalizing more path name with
  | zero =>
    have shut := shut_of_left (Nat.le_zero.mp enough) isObject
    cases more with
    | zero => rfl
    | succ more => rw [enter_succ, objectBody_shut shut, enter]
  | succ room ih =>
    cases more with
    | zero =>
      have shut := shut_of_left (Nat.le_zero.mp plenty) isObject
      rw [enter_succ, objectBody_shut shut, enter]
    | succ more =>
      rw [enter_succ, enter_succ]
      refine objectBody_congr fun type opened found field _ => ?_
      have smaller := left_enter_lt found opened
      have roomLeft : setup.left (path ++ [name]) ≤ room := by omega
      have moreLeft : setup.left (path ++ [name]) ≤ more := by omega
      exact ref_congr (fun inner innerIsObject => ih roomLeft moreLeft innerIsObject) _

def compileAt (setup : Setup) (place : Place) : Compile (Option Strategy) :=
  setup.ref (setup.enter (setup.left place.path) place.path) place.ref

theorem enter_left (isObject : setup.schema.classify name = .ok .object) :
    setup.enter (setup.left path) path name = setup.objectBody setup.compileAt path name := by
  cases space : setup.left path with
  | zero => rw [objectBody_shut (shut_of_left space isObject), enter]
  | succ room =>
    rw [enter_succ]
    refine objectBody_congr fun type opened found field _ => ?_
    have smaller := left_enter_lt found opened
    have roomLeft : setup.left (path ++ [name]) ≤ room := by omega
    exact ref_congr (fun inner => enter_enough roomLeft (Nat.le_refl _)) _

theorem compileAt_eq (place : Place) :
    setup.compileAt place = setup.refBody setup.compileAt place := by
  obtain ⟨path, ref⟩ := place
  cases ref with
  | nonNull inner => rfl
  | list inner => rfl
  | named name =>
    refine ofSchema_bind_congr fun kind classified => ?_
    cases kind with
    | object => exact enter_left classified
    | enum => rfl
    | scalar => rfl
    | query => rfl

theorem root_eq (ref : TypeRef) :
    setup.root ref = (do return (← setup.compileAt ⟨[], ref⟩).getD (.constant .null)) := by
  rw [root, compileAt, left_nil]

-- Each call leaves less of the budgets, or as much of them and fewer wrappers.
theorem call_wellFounded (setup : Setup) :
    WellFounded fun next place => setup.Call place next := by
  have measured : WellFounded (InvImage (Prod.Lex (· < ·) (· < ·)) fun place : Place =>
      (setup.left place.path, sizeOf place.ref)) :=
    InvImage.wf _ (Prod.lex Nat.lt_wfRel Nat.lt_wfRel).wf
  refine Subrelation.wf ?_ measured
  intro next place calls
  cases calls with
  | nonNull => exact .right _ (by simp)
  | element wide => exact .right _ (by simp)
  | field isObject opened found member => exact .left _ _ (left_enter_lt found opened)

theorem compileAt_unique {call : Place → Compile (Option Strategy)}
    (solves : ∀ place, call place = setup.refBody call place) : call = setup.compileAt := by
  funext place
  induction place using setup.call_wellFounded.induction with
  | _ place ih =>
    rw [solves, compileAt_eq]
    exact refBody_congr ih

structure Spending (setup : Setup) (path : List String) : Prop where
  declared : ∀ name ∈ path, name ∈ setup.schema.objects.names
  within : ∀ name, path.count name ≤ setup.policy.allowed name
  spends : path.length + setup.left path ≤ setup.room

theorem spending_nil (setup : Setup) : setup.Spending [] where
  declared := by simp
  within := by simp
  spends := by simp [left_nil]

theorem spending_enter {type : ObjectType} (before : setup.Spending path)
    (opened : setup.policy.mayEnter name path = true)
    (found : setup.schema.object name = .ok type) : setup.Spending (path ++ [name]) where
  declared := by
    intro other member
    rcases List.mem_append.mp member with earlier | last
    · exact before.declared other earlier
    · rw [List.mem_singleton.mp last]
      exact Keyed.mem_names_of_get? (Schema.object_ok.mp found)
  within := Policy.count_enter_le before.within opened
  spends := by
    have smaller := left_enter_lt found opened
    have room := before.spends
    simp only [List.length_append, List.length_singleton]
    omega

theorem spending_call {place next : Place} (calls : setup.Call place next)
    (before : setup.Spending place.path) : setup.Spending next.path := by
  cases calls with
  | nonNull => exact before
  | element wide => exact before
  | field isObject opened found member => exact spending_enter before opened found

theorem spending_reached {root : TypeRef} {place : Place} (reached : setup.Reached root place) :
    setup.Spending place.path := by
  induction reached with
  | root => exact spending_nil setup
  | call here calls ih => exact spending_call calls ih

theorem room_le_budgets (setup : Setup) :
    setup.room ≤ setup.schema.objects.names.foldr
      (fun name others => (setup.policy.budget name).toNat + 1 + others) 0 := by
  unfold room
  induction setup.schema.objects.names with
  | nil => exact Nat.le_refl _
  | cons name rest ih => exact Nat.add_le_add (Nat.min_le_left _ _) ih

theorem length_le_room (spending : setup.Spending path) : path.length ≤ setup.room :=
  Nat.le_trans (Nat.le_add_right _ _) spending.spends

theorem counter_le {before after : List String} (spending : setup.Spending (before ++ after))
    {counter : String × Nat} (member : counter ∈ DepthState.ofPath before) :
    counter.2 ≤ Word.count 32 - 1 := by
  have counted := DepthState.le_count_of_mem member
  rw [DepthState.count_ofPath] at counted
  have within := spending.within counter.1
  rw [List.count_append] at within
  have most : setup.policy.allowed counter.1 ≤ Word.count 32 - 1 := Nat.min_le_right _ _
  omega

theorem remaining_exact (spending : setup.Spending path) (name : String) :
    path.count name + setup.policy.remaining name path = setup.policy.allowed name :=
  Nat.add_sub_cancel' (spending.within name)

-- The recursion over the calls ends and has one solution. On every chain of calls all counts
-- stay within 32 bits, and what remains of a budget is never cut off at zero.
theorem descent_ends (setup : Setup) :
    (∀ ref, setup.root ref =
      (do return (← setup.compileAt ⟨[], ref⟩).getD (.constant .null))) ∧
    (∀ call : Place → Compile (Option Strategy),
      (∀ place, call place = setup.refBody call place) ↔ call = setup.compileAt) ∧
    (∀ (call other : Place → Compile (Option Strategy)) (place : Place),
      (∀ next, setup.Call place next → call next = other next) →
        setup.refBody call place = setup.refBody other place) ∧
    (WellFounded fun next place => setup.Call place next) ∧
    ∀ root place, setup.Reached root place →
      (∀ name ∈ place.path, name ∈ setup.schema.objects.names) ∧
      (∀ name, place.path.count name ≤
        min ((setup.policy.budget name).toNat + 1) (Word.count 32 - 1)) ∧
      place.path.length ≤ setup.schema.objects.names.foldr
        (fun name others => (setup.policy.budget name).toNat + 1 + others) 0 ∧
      (∀ before after, place.path = before ++ after →
        ∀ counter ∈ DepthState.ofPath before, counter.2 ≤ Word.count 32 - 1) ∧
      ∀ name, place.path.count name + setup.policy.remaining name place.path =
        min ((setup.policy.budget name).toNat + 1) (Word.count 32 - 1) := by
  refine ⟨root_eq, fun call => ⟨compileAt_unique, ?_⟩, fun _ _ _ => refBody_congr,
    setup.call_wellFounded, ?_⟩
  · rintro rfl
    exact compileAt_eq
  · intro root place reached
    have spending := spending_reached reached
    have short := Nat.le_trans (length_le_room spending) setup.room_le_budgets
    refine ⟨spending.declared, spending.within, short, ?_, remaining_exact spending⟩
    intro before after split counter member
    rw [split] at spending
    exact counter_le spending member

end Setup

end SchemaSampler
