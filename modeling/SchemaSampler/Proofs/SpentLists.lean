import SchemaSampler.Proofs.Walk

-- Lists of an object type that may not be entered again. The field stays, and its
-- innermost list is the empty list; lists around that one hold empty lists.

namespace SchemaSampler

def TypeRef.lists : TypeRef → Nat
  | named _ => 0
  | list inner => inner.lists + 1
  | nonNull inner => inner.lists

theorem TypeRef.isList_iff {ref : TypeRef} : ref.isList = true ↔ 0 < ref.lists := by
  induction ref with
  | named name => simp [isList, lists]
  | list inner ih => simp [isList, lists]
  | nonNull inner ih => exact ih

def Strategy.hollow (longest : Option UInt32) : Nat → Strategy
  | 0 => emptyList
  | outer + 1 => listOf (hollow longest outer) longest

-- Only a list without room makes one empty list of them all.
theorem Strategy.hollow_eq_emptyList_iff {longest : Option UInt32} {outer : Nat} :
    hollow longest outer = emptyList ↔ outer = 0 ∨ longest = some 0 := by
  cases outer with
  | zero => simp [hollow]
  | succ outer =>
    unfold hollow listOf
    by_cases shut : longest = some 0 <;> simp [shut, emptyList]

def Policy.spentList (policy : Policy) (ref : TypeRef) : Strategy :=
  .hollow (policy.maxWidth ref.base) (ref.lists - 1)

namespace Setup

variable {setup : Setup} {path : List String} {ref : TypeRef}

-- The innermost list is the one that meets the spent budget.
theorem descent_spent {given : Option Strategy} (gives : setup.descent path ref = .ok given)
    (spent : setup.leavesOut path (.named ref.base) = true) :
    given = if ref.lists = 0 then none else some (setup.policy.spentList ref) := by
  induction ref generalizing given with
  | named name => exact (descent_none_iff gives).mpr spent
  | nonNull inner ih => exact ih gives spent
  | list inner ih =>
    change given = some (.hollow (setup.policy.maxWidth inner.base) inner.lists)
    unfold descent plainRef at gives
    dsimp only at gives
    split at gives
    · rename_i shut
      obtain ⟨_, _, made⟩ := Outcome.bind_ok.mp gives
      cases made
      rw [Strategy.hollow_eq_emptyList_iff.mpr (.inr shut)]
    · obtain ⟨element, within, made⟩ := Outcome.bind_ok.mp gives
      have inside := ih within spent
      unfold Policy.spentList at inside
      cases count : inner.lists with
      | zero =>
        rw [count, if_pos rfl] at inside
        subst inside
        cases made
        rfl
      | succ deeper =>
        rw [count, if_neg (Nat.succ_ne_zero _)] at inside
        subst inside
        cases made
        rfl

variable {compiled : Compiled} {type name field : String} {strategy : Strategy}
  {object : ObjectType} {declared : FieldDef}

-- The field has the empty list under all its lists but one, which is the empty list itself
-- exactly for a single list and for lists without room.
theorem spent_list_field (compiles : setup.compile = .ok compiled)
    (walk : compiled.Walk type path (.named name) strategy)
    (isObject : setup.schema.objects.get? name = some object)
    (isField : object.fields.get? field = some declared) (inList : declared.ref.isList = true)
    (leads : setup.schema.objects.contains declared.ref.base = true)
    (spent : setup.policy.remaining declared.ref.base (path ++ [name]) = 0) :
    (∃ fields, strategy = .record fields ∧
      ∀ held, (field, held) ∈ fields ↔ held = setup.policy.spentList declared.ref) ∧
    (setup.policy.spentList declared.ref = .emptyList ↔
      declared.ref.lists = 1 ∨ setup.policy.maxWidth declared.ref.base = some 0) := by
  have any : 0 < declared.ref.lists := TypeRef.isList_iff.mp inList
  have shut : setup.policy.mayEnter declared.ref.base (path ++ [name]) = false := by
    simp [Policy.mayEnter, spent]
  obtain ⟨⟨fields, rfl, record⟩, _⟩ := walk_record compiles walk isObject
  have only : ∀ held, (field, held) ∈ fields → held = setup.policy.spentList declared.ref := by
    intro held member
    obtain ⟨found, isFound, gives⟩ := record.strategies field held member
    rw [isField] at isFound
    cases isFound
    have given := descent_spent gives (leavesOut_named.mpr ⟨leads, shut⟩)
    rw [if_neg (Nat.pos_iff_ne_zero.mp any)] at given
    exact Option.some.inj given
  have kept : field ∈ fields.map Prod.fst := by
    have stays : setup.leavesOut (path ++ [name]) declared.ref = false := by
      simp [leavesOut, inList]
    rw [record.names]
    refine List.mem_map.mpr ⟨(field, declared), List.mem_filter.mpr ⟨?_, ?_⟩, rfl⟩
    · exact Keyed.get?_eq_some_iff.mp isField
    · simp [stays]
  refine ⟨⟨fields, rfl, fun held => ⟨only held, ?_⟩⟩, ?_⟩
  · rintro rfl
    obtain ⟨⟨_, held⟩, member, rfl⟩ := List.mem_map.mp kept
    rwa [only held member] at member
  · rw [Policy.spentList, Strategy.hollow_eq_emptyList_iff]
    exact or_congr_left (by omega)

def orchard : Setup where
  schema := (({} : Schema).withObject "tree"
      [("graft", .nonNull (.named "branch")), ("row", .list (.named "tree"))]).withObject "branch"
      [("trees", .nonNull (.list (.nonNull (.list (.list (.named "tree")))))),
        ("next", .named "tree")]
  policy := (({} : Policy).withDepth "tree" 0).withWidth "tree" 3

theorem orchard_spent_list : ∃ compiled graft fields, orchard.compile = .ok compiled ∧
    compiled.Walk "tree" ["tree"] (.named "branch") graft ∧
    orchard.policy.remaining "tree" ["tree", "branch"] = 0 ∧ graft = .record fields ∧
    ("trees", .list (.list .emptyList (some 3)) (some 3)) ∈ fields := by
  obtain ⟨compiled, graft, compiles, walk⟩ : ∃ compiled graft, orchard.compile = .ok compiled ∧
      compiled.Walk "tree" ["tree"] (.named "branch") graft :=
    ⟨_, _, rfl, .nonNull (.field (.start rfl) rfl
      (rfl : Keyed.get? _ "graft" = some ⟨.nonNull (.named "branch"), none⟩) (.head _))⟩
  have spent : orchard.policy.remaining "tree" ["tree", "branch"] = 0 := rfl
  obtain ⟨⟨fields, same, held⟩, _⟩ :=
    @spent_list_field orchard _ compiled _ _ "trees" _ _ _ compiles walk rfl rfl rfl rfl spent
  exact ⟨compiled, graft, fields, compiles, walk, spent, same, (held _).mpr rfl⟩

def board : Setup where
  schema := ({} : Schema).withObject "cell" [("rows", .list (.list (.named "cell")))]
  policy := ({} : Policy).withDepth "cell" 0

-- A spent list that is not the empty list: any number of empty lists is drawn from it.
theorem board_rows_not_empty : ∃ compiled fields, board.compile = .ok compiled ∧
    compiled.Walk "cell" [] (.named "cell") (.record fields) ∧
    board.policy.remaining "cell" ["cell"] = 0 ∧ fields = [("rows", .list .emptyList none)] ∧
    Strategy.list .emptyList none ≠ .emptyList := by
  refine ⟨_, _, rfl, .start rfl, rfl, rfl, ?_⟩
  simp [Strategy.emptyList]

end Setup

end SchemaSampler
