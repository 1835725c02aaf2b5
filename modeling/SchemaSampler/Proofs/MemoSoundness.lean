import SchemaSampler.Proofs.DepthState
import SchemaSampler.Proofs.Descent
import SchemaSampler.Proofs.Outcome
import SchemaSampler.Proofs.Scalars

-- The table of object types forgets the path; an entry is sound if it is what the descent gives
-- below every path of its depth state.

namespace SchemaSampler

namespace Setup

structure Sound (setup : Setup) (state : CompileState) : Prop where
  leaves : ∀ name strategy, state.leaves.get? name = some strategy →
    ∀ enter, setup.plainRef enter (.named name) = .ok (some strategy)
  memo : ∀ name path strategy, state.memo.get? ⟨name, .ofPath path⟩ = some strategy →
    setup.below path name = .ok (some strategy)

theorem sound_start (setup : Setup) : setup.Sound {} where
  leaves _ _ found := by cases found
  memo name path _ found := by
    rw [Memo.get?_nothing] at found
    cases found

-- From sound states a step has the same outcome and leads to sound states, failing or not.
def Follows (setup : Setup) (step : Compile α) (plain : Except GenerationError α) : Prop :=
  ∀ state, setup.Sound state →
    (step.run.run state).1 = plain ∧ setup.Sound (step.run.run state).2

end Setup

open Setup Compile

variable {setup : Setup}

theorem run_attempt (result : Except GenerationError α) (state : CompileState) :
    (attempt result).run.run state = (result, state) := by
  cases result <;> rfl

theorem follows_attempt (result : Except GenerationError α) :
    setup.Follows (attempt result) result := by
  intro state sound
  rw [run_attempt]
  exact ⟨rfl, sound⟩

theorem follows_pure (value : α) : setup.Follows (pure value) (.ok value) :=
  follows_attempt (.ok value)

theorem follows_ofSchema (result : Except SchemaError α) :
    setup.Follows (Compile.ofSchema result) (Compiled.ofSchema result) :=
  follows_attempt (result.mapError .schema)

theorem follows_bind {first : Compile α} {plain : Except GenerationError α}
    {next : α → Compile β} {plainNext : α → Except GenerationError β}
    (one : setup.Follows first plain)
    (two : ∀ value, plain = .ok value → setup.Follows (next value) (plainNext value)) :
    setup.Follows (first >>= next) (plain >>= plainNext) := by
  intro state sound
  obtain ⟨outcome, kept⟩ := one state sound
  rw [Outcome.run_bind, outcome]
  cases plain with
  | error cause => exact ⟨rfl, kept⟩
  | ok value => exact two value rfl _ kept

theorem follows_map (f : α → β) {step : Compile α} {plain : Except GenerationError α}
    (one : setup.Follows step plain) : setup.Follows (f <$> step) (f <$> plain) := by
  have mapped : setup.Follows (step >>= fun value => pure (f value))
      (plain >>= fun value => .ok (f value)) :=
    follows_bind one fun value _ => follows_pure (f value)
  have plainly : (f <$> plain) = plain >>= fun value => .ok (f value) := by
    cases plain <;> rfl
  rw [plainly, map_eq_pure_bind]
  exact mapped

theorem follows_modify {change : CompileState → CompileState} {next : Compile α}
    {plain : Except GenerationError α} (keeps : ∀ state, setup.Sound state → setup.Sound (change state))
    (rest : setup.Follows next plain) : setup.Follows (modify change >>= fun _ => next) plain := by
  intro state sound
  exact rest (change state) (keeps state sound)

theorem follows_tell {next : Compile α} {plain : Except GenerationError α} (event : Event)
    (rest : setup.Follows next plain) : setup.Follows (tell event >>= fun _ => next) plain :=
  follows_modify (fun _ sound => ⟨sound.leaves, sound.memo⟩) rest

theorem follows_get {next : CompileState → Compile α} {plain : Except GenerationError α}
    (rest : ∀ state, setup.Sound state → setup.Follows (next state) plain) :
    setup.Follows (get >>= next) plain := by
  intro state sound
  exact rest state sound state sound

theorem follows_foldlM {step : β → α → Compile β} {plain : β → α → Except GenerationError β}
    {members : List α} (each : ∀ made, ∀ member ∈ members,
      setup.Follows (step made member) (plain made member)) (start : β) :
    setup.Follows (members.foldlM step start) (members.foldlM plain start) := by
  induction members generalizing start with
  | nil => exact follows_pure start
  | cons first rest ih =>
    rw [List.foldlM_cons, List.foldlM_cons]
    refine follows_bind (each start first (by simp)) fun made _ => ?_
    exact ih (fun made member later => each made member (List.mem_cons_of_mem _ later)) made

theorem follows_remember {make : Compile Strategy} {plain : Except GenerationError Strategy}
    {remember : Strategy → CompileState → CompileState} (makes : setup.Follows make plain)
    (keeps : ∀ strategy, plain = .ok strategy →
      ∀ state, setup.Sound state → setup.Sound (remember strategy state)) :
    setup.Follows (do
      let strategy ← make
      modify (remember strategy)
      return strategy) plain := by
  have whole : (plain >>= .ok) = plain := by cases plain <;> rfl
  rw [← whole]
  refine follows_bind makes fun strategy made => ?_
  exact follows_modify (keeps strategy made) (follows_pure strategy)

theorem sound_leaf {state : CompileState} {name : String} {strategy : Strategy}
    (sound : setup.Sound state)
    (gives : ∀ enter, setup.plainRef enter (.named name) = .ok (some strategy)) :
    setup.Sound { state with leaves := state.leaves.insert name strategy } where
  leaves asked known found := by
    rw [Keyed.get?_insert] at found
    split at found
    · rename_i same
      cases found
      exact same ▸ gives
    · exact sound.leaves asked known found
  memo := sound.memo

theorem sound_object {state : CompileState} {name : String} {path : List String}
    {strategy : Strategy} (sound : setup.Sound state)
    (gives : setup.below path name = .ok (some strategy)) :
    setup.Sound { state with memo := state.memo.insert ⟨name, .ofPath path⟩ strategy } where
  leaves := sound.leaves
  memo asked other known found := by
    rw [Memo.get?_insert] at found
    split at found
    · rename_i same
      obtain ⟨rfl, states⟩ := MemoKey.mk.inj same
      cases found
      rw [below_congr (DepthState.count_eq_of_ofPath_eq states)]
      exact gives
    · exact sound.memo asked other known found

theorem follows_leaf {name : String} {make : Compile Strategy}
    {plain : Except GenerationError Strategy}
    (meaning : ∀ enter, setup.plainRef enter (.named name) = some <$> plain)
    (makes : setup.Follows make plain) : setup.Follows (leaf name make) plain := by
  refine follows_get fun known soundKnown => ?_
  cases found : known.leaves.get? name with
  | some strategy =>
    have gives := soundKnown.leaves name strategy found fun _ => .ok none
    rw [meaning, Outcome.map_ok] at gives
    obtain ⟨same, made, equal⟩ := gives
    cases equal
    rw [made]
    exact follows_pure strategy
  | none =>
    refine follows_remember makes fun strategy made state sound => sound_leaf sound fun enter => ?_
    rw [meaning, made]
    rfl

theorem follows_object {name : String} {path : List String} {depth : Nat}
    {make : Compile Strategy} {plain : Except GenerationError Strategy}
    (meaning : setup.below path name = some <$> plain) (makes : setup.Follows make plain) :
    setup.Follows (object ⟨name, .ofPath path⟩ depth make) plain := by
  refine follows_get fun known soundKnown => ?_
  cases found : known.memo.get? ⟨name, .ofPath path⟩ with
  | some strategy =>
    have gives := soundKnown.memo name path strategy found
    rw [meaning, Outcome.map_ok] at gives
    obtain ⟨same, made, equal⟩ := gives
    cases equal
    rw [made]
    refine follows_modify (fun _ sound => ⟨sound.leaves, sound.memo⟩) ?_
    exact follows_tell _ (follows_pure strategy)
  | none =>
    refine follows_remember makes fun strategy made state sound => sound_object sound ?_
    rw [meaning, made]
    rfl

theorem follows_enum {name : String} (isEnum : setup.schema.classify name = .ok .enum) :
    setup.Follows (setup.enum name) (setup.plainEnum name) := by
  refine follows_leaf (fun _ => plainRef_named isEnum) ?_
  refine follows_bind (follows_ofSchema _) fun type _ => ?_
  by_cases empty : type.values.isEmpty = true
  · rw [if_pos empty, if_pos empty]
    exact follows_tell _ (follows_pure _)
  · rw [if_neg empty, if_neg empty]
    exact follows_pure _

theorem follows_scalar {name : String} (isScalar : setup.schema.classify name = .ok .scalar) :
    setup.Follows (setup.scalar name) (setup.scalars.strategy name) :=
  follows_leaf (fun _ => plainRef_named isScalar) (follows_attempt _)

theorem follows_ref {enter : String → Compile (Option Strategy)}
    {plain : String → Except GenerationError (Option Strategy)}
    (objects : ∀ name, setup.schema.classify name = .ok .object →
      setup.Follows (enter name) (plain name)) (ref : TypeRef) :
    setup.Follows (setup.ref enter ref) (setup.plainRef plain ref) := by
  induction ref with
  | nonNull inner ih => exact ih
  | list inner ih =>
    unfold ref plainRef
    by_cases empty : setup.policy.maxWidth inner.base = some 0
    · simp only [empty, ↓reduceIte]
      exact follows_bind (follows_ofSchema _) fun _ _ => follows_pure _
    · simp only [empty, ↓reduceIte]
      refine follows_bind ih fun element _ => ?_
      cases element with
      | some element => exact follows_pure _
      | none => exact follows_pure _
  | named name =>
    unfold ref plainRef
    refine follows_bind (follows_ofSchema _) fun kind classified => ?_
    have classified := Outcome.mapError_ok.mp classified
    cases kind with
    | enum => exact follows_map some (follows_enum classified)
    | scalar => exact follows_map some (follows_scalar classified)
    | object => exact objects name classified
    | query => exact follows_attempt (.error _)

theorem follows_fields {type : String} {ref : TypeRef → Compile (Option Strategy)}
    {plain : TypeRef → Except GenerationError (Option Strategy)}
    (refs : ∀ given, setup.Follows (ref given) (plain given))
    (entries : List (String × FieldDef)) :
    setup.Follows (fields type ref entries) (plainFields plain entries) := by
  induction entries with
  | nil => exact follows_pure []
  | cons entry rest ih =>
    unfold fields plainFields
    refine follows_bind (refs entry.2.ref) fun strategy _ => ?_
    cases strategy with
    | some strategy => exact follows_bind ih fun others _ => follows_pure _
    | none => exact follows_tell _ ih

-- The bound on the steps is never what decides: where it is used up, no budget is left.
theorem follows_enter {room : Nat} {path : List String} {name : String}
    (enough : setup.left path ≤ room) (isObject : setup.schema.classify name = .ok .object) :
    setup.Follows (setup.enter room path name) (setup.below path name) := by
  induction room generalizing path name with
  | zero =>
    rw [below_eq, if_neg (shut_of_left (Nat.le_zero.mp enough) isObject)]
    exact follows_tell _ (follows_pure none)
  | succ room ih =>
    unfold enter
    by_cases opened : setup.policy.mayEnter name path = true
    · have meaning : setup.below path name = some <$> setup.plainObject path name := by
        rw [below_eq, if_pos opened]
      rw [if_pos opened, meaning]
      refine follows_map some (follows_object meaning ?_)
      refine follows_bind (follows_ofSchema _) fun type found => ?_
      have smaller := left_enter_lt (Outcome.mapError_ok.mp found) opened
      refine follows_bind (follows_fields (follows_ref fun inner innerIsObject => ?_) _) fun made _ => ?_
      · exact ih (by omega) innerIsObject
      · exact follows_tell _ (follows_pure _)
    · rw [if_neg opened, below_eq, if_neg opened]
      exact follows_tell _ (follows_pure none)

theorem follows_root (ref : TypeRef) :
    setup.Follows (setup.root ref) (setup.plainRoot ref) := by
  refine follows_bind (follows_ref (fun name isObject => ?_) ref) fun strategy _ => follows_pure _
  exact follows_enter (Nat.le_of_eq setup.left_nil) isObject

theorem follows_addType (types : Keyed Strategy) (name : String) :
    setup.Follows (setup.addType types name) (setup.plainType types name) :=
  follows_bind (follows_root _) fun _ _ => follows_pure _

theorem follows_addQuery (queries : Keyed Strategy) (entry : String × QueryDef) :
    setup.Follows (setup.addQuery queries entry) (setup.plainQuery queries entry) :=
  follows_bind (follows_root _) fun _ _ => follows_pure _

theorem has_of_leaf {name : String} {strategy : Strategy} (member : name ∈ setup.schema.names .scalar)
    (gives : ∀ enter, setup.plainRef enter (.named name) = .ok (some strategy)) :
    setup.scalars.has name = true := by
  have made := gives fun _ => .ok none
  unfold plainRef at made
  obtain ⟨kind, classified, made⟩ := Outcome.bind_ok.mp made
  have isScalar := Schema.classify_scalar (Outcome.mapError_ok.mp classified) member
  subst isScalar
  obtain ⟨_, found, _⟩ := Outcome.map_ok.mp made
  exact Scalars.has_of_strategy found

-- A scalar is remembered only if a strategy was found for it before.
theorem follows_addScalar (types : Keyed Strategy) {name : String}
    (member : name ∈ setup.schema.names .scalar) :
    setup.Follows (setup.addScalar types name) (setup.plainScalar types name) := by
  refine follows_get fun known soundKnown => ?_
  cases found : known.leaves.get? name with
  | some strategy =>
    have gives := soundKnown.leaves name strategy found
    have whole : setup.plainRoot (.named name) = .ok strategy := by
      unfold plainRoot descent
      rw [gives]
      rfl
    have plainly : setup.plainScalar types name = .ok (types.insert name strategy) := by
      unfold plainScalar plainType
      rw [if_pos (has_of_leaf member gives), whole]
      rfl
    rw [plainly]
    exact follows_pure _
  | none =>
    unfold plainScalar
    by_cases has : setup.scalars.has name = true
    · simp only [has, ↓reduceIte]
      exact follows_addType types name
    · simp only [has]
      exact follows_tell _ (follows_pure types)

theorem follows_tells (events : List Event) {next : Compile α} {plain : Except GenerationError α}
    (rest : setup.Follows next plain) :
    setup.Follows (events.forM tell >>= fun _ => next) plain := by
  have told : setup.Follows (events.forM tell) (.ok ()) := by
    induction events with
    | nil => exact follows_pure ()
    | cons event others ih => exact follows_tell event ih
  exact follows_bind told fun _ _ => rest

theorem follows_strategies : setup.Follows setup.strategies setup.plainCompile := by
  refine follows_bind (follows_ofSchema _) fun _ _ => ?_
  refine follows_tells _ ?_
  refine follows_bind (follows_foldlM (fun types name _ => follows_addType types name) _)
    fun types _ => ?_
  refine follows_bind (follows_foldlM (fun types name _ => follows_addType types name) _)
    fun types _ => ?_
  refine follows_bind (follows_foldlM (fun made entry _ => follows_addQuery made entry) _)
    fun queries _ => ?_
  refine follows_bind (follows_foldlM (fun types name member => follows_addScalar types member) _)
    fun types _ => ?_
  exact follows_get fun _ _ => follows_tell _ (follows_pure _)

-- Outcome, error and strategies are those of the descent that remembers nothing.
theorem compile_eq_plainCompile (setup : Setup) : setup.compile = setup.plainCompile :=
  (follows_strategies {} setup.sound_start).1

end SchemaSampler
