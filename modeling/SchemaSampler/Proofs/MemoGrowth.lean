import SchemaSampler.Proofs.Calls

-- A field loop enters references below its own path only, so that it completes types under
-- longer paths and never the type that it works for.

namespace SchemaSampler

def Event.completed? : Event → Option (String × Nat)
  | .objectCompiled type depth _ => some (type, depth)
  | _ => none

def CompileState.completed (state : CompileState) : List (String × Nat) :=
  state.events.filterMap Event.completed?

def MemoKey.completed (key : MemoKey) : String × Nat := (key.type, key.state.total)

namespace Compile

variable {key : MemoKey} {depth : Nat} {make : Compile Strategy} {state last : CompileState}
  {strategy : Strategy} {cause : GenerationError}

theorem run_get (next : CompileState → Compile α) (state : CompileState) :
    (get >>= next).run.run state = (next state).run.run state := rfl

theorem object_known (known : state.memo.get? key = some strategy) :
    (object key depth make).run.run state = (.ok strategy, { state with
      memoHits := state.memoHits + 1, events := .memoHit key.type depth :: state.events }) := by
  unfold object
  rw [run_get, known]
  rfl

theorem object_made (unknown : state.memo.get? key = none)
    (made : make.run.run state = (.ok strategy, last)) :
    (object key depth make).run.run state =
      (.ok strategy, { last with memo := last.memo.insert key strategy }) := by
  unfold object
  rw [run_get, unknown]
  exact Outcome.run_bind_ok.mpr ⟨strategy, last, made, rfl⟩

theorem object_failed (unknown : state.memo.get? key = none)
    (failed : make.run.run state = (.error cause, last)) :
    (object key depth make).run.run state = (.error cause, last) := by
  unfold object
  rw [run_get, unknown, Outcome.run_bind, failed]
  rfl

end Compile

namespace Setup

open Compile

def fieldLoop (setup : Setup) (room : Nat) (path : List String) (name : String) :
    Compile Strategy := do
  let type ← Compile.ofSchema (setup.schema.object name)
  let fields ← fields name (setup.ref (setup.enter room (path ++ [name]))) type.fields.entries
  tell (.objectCompiled name path.length fields.length)
  return .record fields

inductive Deeper (setup : Setup) (path : List String) : List String → Prop where
  | here : Deeper setup path path
  | enter (above : Deeper setup path lower) (opened : setup.policy.mayEnter name lower = true)
      (found : setup.schema.object name = .ok type) : Deeper setup path (lower ++ [name])

def KeyBelow (setup : Setup) (path : List String) (key : MemoKey) : Prop :=
  ∃ lower, setup.Deeper path lower ∧ key.state = .ofPath lower ∧
    setup.policy.mayEnter key.type lower = true ∧ ∃ type, setup.schema.object key.type = .ok type

-- Between two states the field loops of some keys were completed, the latest first.
structure Completes (setup : Setup) (path : List String) (keys : List MemoKey)
    (before after : CompileState) : Prop where
  below : ∀ key ∈ keys, setup.KeyBelow path key
  absent : ∀ key ∈ keys, before.memo.get? key = none
  stored : ∀ key ∈ keys, ∃ strategy, after.memo.get? key = some strategy
  kept : ∀ key, key ∉ keys → after.memo.get? key = before.memo.get? key
  distinct : keys.Nodup
  size : after.memo.size = before.memo.size + keys.length
  told : after.completed = keys.map MemoKey.completed ++ before.completed

variable {setup : Setup} {path lower middle : List String} {name : String} {room : Nat}
  {keys more : List MemoKey} {key : MemoKey} {before between after : CompileState}

theorem Deeper.trans (first : setup.Deeper path middle) (second : setup.Deeper middle lower) :
    setup.Deeper path lower := by
  induction second with
  | here => exact first
  | enter _ opened found ih => exact .enter ih opened found

theorem Deeper.length_le (deeper : setup.Deeper path lower) : path.length ≤ lower.length := by
  induction deeper with
  | here => exact Nat.le_refl _
  | enter _ _ _ ih => simp only [List.length_append]; omega

theorem Deeper.spending (deeper : setup.Deeper path lower) (spending : setup.Spending path) :
    setup.Spending lower := by
  induction deeper with
  | here => exact spending
  | enter _ opened found ih => exact spending_enter ih opened found

theorem KeyBelow.raise (deeper : setup.Deeper path lower) (below : setup.KeyBelow lower key) :
    setup.KeyBelow path key := by
  obtain ⟨place, further, entered⟩ := below
  exact ⟨place, deeper.trans further, entered⟩

theorem KeyBelow.length_le (below : setup.KeyBelow path key) : path.length ≤ key.state.total := by
  obtain ⟨place, deeper, entered, _⟩ := below
  rw [entered, DepthState.total_ofPath]
  exact deeper.length_le

theorem Completes.idle (memo : after.memo = before.memo)
    (told : after.completed = before.completed) : setup.Completes path [] before after where
  below := nofun
  absent := nofun
  stored := nofun
  kept _ _ := by rw [memo]
  distinct := .nil
  size := by rw [memo]; rfl
  told := told

theorem Completes.trans (one : setup.Completes path keys before between)
    (two : setup.Completes path more between after) :
    setup.Completes path (more ++ keys) before after := by
  have apart : ∀ key ∈ more, key ∉ keys := by
    intro key later earlier
    obtain ⟨strategy, stored⟩ := one.stored key earlier
    rw [two.absent key later] at stored
    cases stored
  refine ⟨?_, ?_, ?_, ?_, ?_, ?_, ?_⟩
  · exact List.forall_mem_append.mpr ⟨two.below, one.below⟩
  · refine List.forall_mem_append.mpr ⟨fun key later => ?_, one.absent⟩
    rw [← one.kept key (apart key later)]
    exact two.absent key later
  · refine List.forall_mem_append.mpr ⟨two.stored, fun key earlier => ?_⟩
    rw [two.kept key fun later => apart key later earlier]
    exact one.stored key earlier
  · intro key outside
    rw [List.mem_append, not_or] at outside
    rw [two.kept key outside.1, one.kept key outside.2]
  · refine List.nodup_append.mpr ⟨two.distinct, one.distinct, ?_⟩
    rintro key later other earlier rfl
    exact apart key later earlier
  · rw [two.size, one.size, List.length_append]
    omega
  · rw [two.told, one.told, List.map_append, List.append_assoc]

theorem Completes.stands {strategy : Strategy} (completes : setup.Completes path keys before after)
    (stored : before.memo.get? key = some strategy) : after.memo.get? key = some strategy := by
  have outside : key ∉ keys := by
    intro member
    rw [completes.absent key member] at stored
    cases stored
  rw [completes.kept key outside, stored]

theorem Completes.raise (deeper : setup.Deeper path lower)
    (completes : setup.Completes lower keys before after) :
    setup.Completes path keys before after :=
  { completes with below := fun key member => (completes.below key member).raise deeper }

theorem Completes.insert {strategy : Strategy} (inner : setup.Completes path keys before between)
    (below : setup.KeyBelow path key) (absent : before.memo.get? key = none) (fresh : key ∉ keys)
    (memo : after.memo = between.memo.insert key strategy)
    (told : after.completed = key.completed :: between.completed) :
    setup.Completes path (key :: keys) before after := by
  have unknown : between.memo.get? key = none := by rw [inner.kept key fresh, absent]
  refine ⟨?_, ?_, ?_, ?_, ?_, ?_, ?_⟩
  · exact List.forall_mem_cons.mpr ⟨below, inner.below⟩
  · exact List.forall_mem_cons.mpr ⟨absent, inner.absent⟩
  · refine List.forall_mem_cons.mpr ⟨⟨strategy, ?_⟩, fun other member => ?_⟩
    · rw [memo, Memo.get?_insert, if_pos rfl]
    · obtain ⟨found, stored⟩ := inner.stored other member
      have apart : other ≠ key := fun same => fresh (same ▸ member)
      refine ⟨found, ?_⟩
      rw [memo, Memo.get?_insert, if_neg apart, stored]
  · intro other outside
    rw [List.mem_cons, not_or] at outside
    rw [memo, Memo.get?_insert, if_neg outside.1, inner.kept other outside.2]
  · exact List.nodup_cons.mpr ⟨fresh, inner.distinct⟩
  · rw [memo, Memo.size_insert strategy unknown, inner.size, List.length_cons]
    omega
  · rw [told, inner.told, List.map_cons, List.cons_append]

-- From whatever state it sets out, and whether it fails or not.
def Completing (setup : Setup) (path : List String) (step : Compile α) : Prop :=
  ∀ before, ∃ keys, setup.Completes path keys before (step.run.run before).2

theorem completing_none {step : Compile α}
    (memo : ∀ before, (step.run.run before).2.memo = before.memo)
    (told : ∀ before, (step.run.run before).2.completed = before.completed) :
    setup.Completing path step :=
  fun before => ⟨[], .idle (memo before) (told before)⟩

theorem completing_pure (value : α) : setup.Completing path (pure value) :=
  completing_none (fun _ => rfl) fun _ => rfl

theorem completing_attempt (result : Except GenerationError α) :
    setup.Completing path (attempt result) := by
  cases result <;> exact completing_none (fun _ => rfl) fun _ => rfl

theorem completing_tell {event : Event} (other : event.completed? = none) :
    setup.Completing path (tell event) := by
  refine completing_none (fun _ => rfl) fun before => ?_
  change List.filterMap Event.completed? (event :: before.events) = _
  rw [List.filterMap_cons_none other]
  rfl

theorem completing_bind {first : Compile α} {next : α → Compile β}
    (one : setup.Completing path first) (two : ∀ value, setup.Completing path (next value)) :
    setup.Completing path (first >>= next) := by
  intro before
  obtain ⟨keys, completes⟩ := one before
  rw [Outcome.run_bind]
  cases ran : first.run.run before with
  | mk outcome between =>
    rw [ran] at completes
    cases outcome with
    | error cause => exact ⟨keys, completes⟩
    | ok value =>
      obtain ⟨more, later⟩ := two value between
      exact ⟨more ++ keys, completes.trans later⟩

theorem completing_map (f : α → β) {step : Compile α} (one : setup.Completing path step) :
    setup.Completing path (f <$> step) := by
  rw [map_eq_pure_bind]
  exact completing_bind one fun value => completing_pure (f value)

theorem completing_get {next : CompileState → Compile α}
    (each : ∀ known, setup.Completing path (next known)) : setup.Completing path (get >>= next) := by
  intro before
  exact each before before

theorem completing_ofSchema (result : Except SchemaError α) :
    setup.Completing path (Compile.ofSchema result) :=
  completing_attempt (result.mapError .schema)

theorem completing_foldlM {step : β → α → Compile β}
    (each : ∀ made member, setup.Completing path (step made member)) (members : List α)
    (start : β) : setup.Completing path (members.foldlM step start) := by
  induction members generalizing start with
  | nil => exact completing_pure start
  | cons first rest ih =>
    rw [List.foldlM_cons]
    exact completing_bind (each start first) ih

theorem completing_leaf {make : Compile Strategy} (makes : setup.Completing path make) :
    setup.Completing path (leaf name make) := by
  refine completing_get fun known => ?_
  split
  · exact completing_pure _
  · refine completing_bind makes fun strategy => ?_
    exact completing_bind (completing_none (fun _ => rfl) fun _ => rfl) fun _ => completing_pure _

theorem completing_enum : setup.Completing path (setup.enum name) := by
  refine completing_leaf (completing_bind (completing_ofSchema _) fun type => ?_)
  split
  · exact completing_bind (completing_tell rfl) fun _ => completing_pure _
  · exact completing_pure _

theorem completing_scalar : setup.Completing path (setup.scalar name) :=
  completing_leaf (completing_attempt _)

theorem completing_ref {enter : String → Compile (Option Strategy)}
    (objects : ∀ name, setup.Completing path (enter name)) (ref : TypeRef) :
    setup.Completing path (setup.ref enter ref) := by
  induction ref with
  | nonNull inner ih => exact ih
  | list inner ih =>
    unfold Setup.ref
    dsimp only
    split
    · exact completing_bind (completing_ofSchema _) fun _ => completing_pure _
    · refine completing_bind ih fun element => ?_
      cases element <;> exact completing_pure _
  | named name =>
    refine completing_bind (completing_ofSchema _) fun kind => ?_
    cases kind with
    | enum => exact completing_map some completing_enum
    | scalar => exact completing_map some completing_scalar
    | object => exact objects name
    | query => exact completing_attempt (.error _)

theorem completing_fields {type : String} {ref : TypeRef → Compile (Option Strategy)}
    (refs : ∀ given, setup.Completing path (ref given)) (entries : List (String × FieldDef)) :
    setup.Completing path (fields type ref entries) := by
  induction entries with
  | nil => exact completing_pure []
  | cons entry rest ih =>
    unfold fields
    refine completing_bind (refs entry.2.ref) fun strategy => ?_
    cases strategy with
    | some strategy => exact completing_bind ih fun _ => completing_pure _
    | none => exact completing_bind (completing_tell rfl) fun _ => ih

theorem completing_spent : setup.Completing path (spent lower name) :=
  completing_bind (completing_tell rfl) fun _ => completing_pure none

theorem fieldLoop_run {type : ObjectType} (found : setup.schema.object name = .ok type)
    (inside : ∀ inner, setup.Completing (path ++ [name]) (setup.enter room (path ++ [name]) inner))
    (before : CompileState) :
    ∃ keys last, setup.Completes (path ++ [name]) keys before last ∧
      ((∃ cause, (setup.fieldLoop room path name).run.run before = (.error cause, last)) ∨
        ∃ made, (setup.fieldLoop room path name).run.run before = (.ok (.record made),
          { last with events := .objectCompiled name path.length made.length :: last.events })) := by
  let inner := fields name (setup.ref (setup.enter room (path ++ [name]))) type.fields.entries
  have loop : setup.fieldLoop room path name = inner >>= fun made => do
      tell (.objectCompiled name path.length made.length)
      return .record made := by
    unfold fieldLoop
    rw [found]
    rfl
  have completing : setup.Completing (path ++ [name]) inner :=
    completing_fields (completing_ref inside) type.fields.entries
  obtain ⟨keys, completes⟩ := completing before
  rw [loop, Outcome.run_bind]
  refine ⟨keys, _, completes, ?_⟩
  cases inner.run.run before with
  | mk outcome last =>
    cases outcome with
    | error cause => exact .inl ⟨cause, rfl⟩
    | ok made => exact .inr ⟨made, rfl⟩

theorem fieldLoop_undeclared {cause : SchemaError} (missing : setup.schema.object name = .error cause)
    (before : CompileState) :
    (setup.fieldLoop room path name).run.run before = (.error (.schema cause), before) := by
  unfold fieldLoop
  rw [missing]
  rfl

-- The path of the loop has grown by a name, so that no key below it is the loop's own.
theorem Completes.fresh (inner : setup.Completes (path ++ [name]) keys before after) :
    ⟨name, .ofPath path⟩ ∉ keys := by
  intro member
  have length := (inner.below _ member).length_le
  rw [DepthState.total_ofPath, List.length_append, List.length_singleton] at length
  omega

theorem enter_opened (room : Nat) (opened : setup.policy.mayEnter name path = true) :
    setup.enter (room + 1) path name = some <$> object ⟨name, .ofPath path⟩ path.length
      (setup.fieldLoop room path name) := by
  rw [enter, if_pos opened]
  rfl

theorem completing_object (opened : setup.policy.mayEnter name path = true)
    (inside : ∀ inner, setup.Completing (path ++ [name])
      (setup.enter room (path ++ [name]) inner)) :
    setup.Completing path
      (object ⟨name, .ofPath path⟩ path.length (setup.fieldLoop room path name)) := by
  intro before
  cases known : before.memo.get? ⟨name, .ofPath path⟩ with
  | some strategy =>
    rw [object_known known]
    exact ⟨[], .idle rfl rfl⟩
  | none =>
    cases found : setup.schema.object name with
    | error cause =>
      rw [object_failed known (fieldLoop_undeclared found before)]
      exact ⟨[], .idle rfl rfl⟩
    | ok type =>
      have deeper : setup.Deeper path (path ++ [name]) := .enter .here opened found
      obtain ⟨keys, last, inner, ⟨cause, failed⟩ | ⟨made, ended⟩⟩ :=
        fieldLoop_run found inside before
      · rw [object_failed known failed]
        exact ⟨keys, inner.raise deeper⟩
      · rw [object_made known ended]
        have below : setup.KeyBelow path ⟨name, .ofPath path⟩ :=
          ⟨path, .here, rfl, opened, type, found⟩
        have told : (name, path.length) = (⟨name, .ofPath path⟩ : MemoKey).completed := by
          rw [MemoKey.completed, DepthState.total_ofPath]
        exact ⟨_, (inner.raise deeper).insert below known inner.fresh rfl (by rw [← told]; rfl)⟩

theorem completing_enter (room : Nat) (path : List String) (name : String) :
    setup.Completing path (setup.enter room path name) := by
  induction room generalizing path name with
  | zero => exact completing_spent
  | succ room ih =>
    by_cases opened : setup.policy.mayEnter name path = true
    · rw [enter_opened room opened]
      exact completing_map some (completing_object opened (ih (path ++ [name])))
    · rw [enter, if_neg opened]
      exact completing_spent

theorem completing_root (ref : TypeRef) : setup.Completing [] (setup.root ref) :=
  completing_bind (completing_ref (completing_enter setup.room []) ref) fun _ => completing_pure _

theorem completing_addType (types : Keyed Strategy) (name : String) :
    setup.Completing [] (setup.addType types name) :=
  completing_bind (completing_root _) fun _ => completing_pure _

theorem completing_addQuery (queries : Keyed Strategy) (entry : String × QueryDef) :
    setup.Completing [] (setup.addQuery queries entry) :=
  completing_bind (completing_root _) fun _ => completing_pure _

theorem completing_addScalar (types : Keyed Strategy) (name : String) :
    setup.Completing [] (setup.addScalar types name) := by
  refine completing_get fun known => ?_
  split
  · exact completing_pure _
  · split
    · exact completing_addType types name
    · exact completing_bind (completing_tell rfl) fun _ => completing_pure _

theorem completing_unusedLimits : setup.Completing [] (setup.unusedLimits.forM tell) := by
  have quiet : ∀ event ∈ setup.unusedLimits, event.completed? = none := by
    intro event member
    rcases List.mem_append.mp member with inside | inside
    · obtain ⟨name, _, rfl⟩ := List.mem_map.mp inside
      rfl
    · obtain ⟨name, _, rfl⟩ := List.mem_map.mp inside
      rfl
  revert quiet
  induction setup.unusedLimits with
  | nil => exact fun _ => completing_pure ()
  | cons event others ih =>
    intro quiet
    obtain ⟨first, rest⟩ := List.forall_mem_cons.mp quiet
    exact completing_bind (completing_tell first) fun _ => ih rest

theorem completing_strategies : setup.Completing [] setup.strategies := by
  refine completing_bind (completing_ofSchema _) fun _ => ?_
  refine completing_bind completing_unusedLimits fun _ => ?_
  refine completing_bind (completing_foldlM completing_addType _ _) fun types => ?_
  refine completing_bind (completing_foldlM completing_addType _ _) fun types => ?_
  refine completing_bind (completing_foldlM completing_addQuery _ _) fun queries => ?_
  refine completing_bind (completing_foldlM completing_addScalar _ _) fun types => ?_
  exact completing_get fun _ => completing_bind (completing_tell rfl) fun _ => completing_pure _

def session (setup : Setup) (refs : List TypeRef) : CompileState :=
  refs.foldl (fun state ref => ((setup.root ref).run.run state).2) {}

theorem session_completes (setup : Setup) (refs : List TypeRef) :
    ∃ keys, setup.Completes [] keys {} (setup.session refs) := by
  have run (start : CompileState) : ∃ keys, setup.Completes [] keys start
      (refs.foldl (fun state ref => ((setup.root ref).run.run state).2) start) := by
    induction refs generalizing start with
    | nil => exact ⟨[], .idle rfl rfl⟩
    | cons ref rest ih =>
      obtain ⟨keys, first⟩ := completing_root ref start
      obtain ⟨more, later⟩ := ih ((setup.root ref).run.run start).2
      exact ⟨more ++ keys, first.trans later⟩
  exact run {}

structure Accounted (setup : Setup) (keys : List MemoKey) (state : CompileState) : Prop where
  distinct : keys.Nodup
  stored : ∀ key, key ∈ keys ↔ ∃ strategy, state.memo.get? key = some strategy
  size : state.memo.size = keys.length
  completed : state.completed = keys.map MemoKey.completed
  declared : ∀ key ∈ keys, key.type ∈ setup.schema.objects.names
  within : ∀ key ∈ keys, ∀ counter ∈ key.state, counter.2 ≤
    min ((setup.policy.budget counter.1).toNat + 1) (Word.count 32 - 1)

theorem Completes.accounted (completes : setup.Completes [] keys {} after) :
    setup.Accounted keys after where
  distinct := completes.distinct
  stored key := by
    constructor
    · exact completes.stored key
    · rintro ⟨strategy, stored⟩
      by_contra outside
      rw [completes.kept key outside, Memo.get?_nothing] at stored
      cases stored
  size := by
    rw [completes.size]
    exact Nat.zero_add _
  completed := by
    rw [completes.told]
    exact List.append_nil _
  declared key member := by
    obtain ⟨_, _, _, _, type, found⟩ := completes.below key member
    exact Keyed.mem_names_of_get? (Schema.object_ok.mp found)
  within key member counter inside := by
    obtain ⟨lower, deeper, entered, _⟩ := completes.below key member
    rw [entered] at inside
    exact Nat.le_trans (DepthState.counter_le_count inside) ((deeper.spending setup.spending_nil).within counter.1)

theorem fieldLoop_entry {strategy : Strategy}
    (ended : (setup.fieldLoop room path name).run.run before = (.ok strategy, after)) :
    after.memo.get? ⟨name, .ofPath path⟩ = before.memo.get? ⟨name, .ofPath path⟩ := by
  cases found : setup.schema.object name with
  | error cause =>
    rw [fieldLoop_undeclared found] at ended
    cases ended
  | ok type =>
    obtain ⟨keys, last, inner, ⟨cause, failed⟩ | ⟨made, told⟩⟩ :=
      fieldLoop_run found (completing_enter room (path ++ [name])) before
    · rw [failed] at ended
      cases ended
    · rw [told] at ended
      cases ended
      exact inner.kept _ inner.fresh

-- When a field loop ends there is no entry for its key, whatever it entered, and the one that is
-- written then stands from there on.
theorem once_per_key (setup : Setup) :
    (∀ room path name, setup.policy.mayEnter name path = true →
      setup.enter (room + 1) path name = some <$> object ⟨name, .ofPath path⟩ path.length
        (setup.fieldLoop room path name)) ∧
    (∀ room path name before strategy last, before.memo.get? ⟨name, .ofPath path⟩ = none →
      (setup.fieldLoop room path name).run.run before = (.ok strategy, last) →
        last.memo.get? ⟨name, .ofPath path⟩ = none ∧
        (object ⟨name, .ofPath path⟩ path.length (setup.fieldLoop room path name)).run.run before =
          (.ok strategy, { last with memo := last.memo.insert ⟨name, .ofPath path⟩ strategy })) ∧
    (∀ room path ref before key strategy, before.memo.get? key = some strategy →
      ((setup.ref (setup.enter room path) ref).run.run before).2.memo.get? key = some strategy) ∧
    (∀ refs, ∃ keys, setup.Accounted keys (setup.session refs)) ∧
    ∀ refs, ∃ keys, setup.Accounted keys (setup.strategies.run.run (setup.session refs)).2 := by
  refine ⟨fun room path name => enter_opened room, ?_, ?_, ?_, ?_⟩
  · intro room path name before strategy last unknown ended
    exact ⟨(fieldLoop_entry ended).trans unknown, object_made unknown ended⟩
  · intro room path ref before key strategy stored
    obtain ⟨keys, completes⟩ := completing_ref (completing_enter room path) ref before
    exact completes.stands stored
  · intro refs
    obtain ⟨keys, completes⟩ := session_completes setup refs
    exact ⟨keys, completes.accounted⟩
  · intro refs
    obtain ⟨keys, first⟩ := session_completes setup refs
    obtain ⟨more, later⟩ := completing_strategies (setup.session refs)
    exact ⟨more ++ keys, (first.trans later).accounted⟩

end Setup

end SchemaSampler
