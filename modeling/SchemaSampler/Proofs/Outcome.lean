namespace SchemaSampler.Outcome

variable {ε ε' α β : Type}

theorem ok_bind (value : α) (next : α → Except ε β) : (.ok value >>= next) = next value := rfl

theorem bind_ok {first : Except ε α} {next : α → Except ε β} {result : β} :
    (first >>= next) = .ok result ↔ ∃ value, first = .ok value ∧ next value = .ok result := by
  cases first with
  | error cause => simp [bind, Except.bind]
  | ok value => simp [bind, Except.bind]

theorem bind_error {first : Except ε α} {next : α → Except ε β} {cause : ε} :
    (first >>= next) = .error cause ↔
      first = .error cause ∨ ∃ value, first = .ok value ∧ next value = .error cause := by
  cases first with
  | error cause => simp [bind, Except.bind]
  | ok value => simp [bind, Except.bind]

theorem map_ok {first : Except ε α} {f : α → β} {result : β} :
    (f <$> first) = .ok result ↔ ∃ value, first = .ok value ∧ f value = result := by
  cases first with
  | error cause => simp [Functor.map, Except.map]
  | ok value => simp [Functor.map, Except.map]

theorem pure_ok {given result : α} : (pure given : Except ε α) = .ok result ↔ given = result := by
  simp [pure, Except.pure]

theorem bind_pure_runs_iff {first : Except ε α} {f : α → β} :
    (∃ result, (first >>= fun value => pure (f value)) = .ok result) ↔
      ∃ value, first = .ok value := by
  cases first with
  | error cause => simp [bind, Except.bind]
  | ok value => simp [bind, Except.bind, pure, Except.pure]

theorem map_runs_iff {first : Except ε α} {f : α → β} :
    (∃ result, first.map f = .ok result) ↔ ∃ value, first = .ok value := by
  cases first <;> simp [Except.map]

theorem mapError_ok {first : Except ε α} {f : ε → ε'} {result : α} :
    first.mapError f = .ok result ↔ first = .ok result := by
  cases first with
  | error cause =>
    constructor <;> intro impossible
    · cases impossible
    · cases impossible
  | ok value =>
    constructor <;> intro same
    · cases same
      rfl
    · cases same
      rfl

def error? : Except ε α → Option ε
  | .error cause => some cause
  | .ok _ => none

theorem eq_error_iff {outcome : Except ε α} {cause : ε} :
    outcome = .error cause ↔ error? outcome = some cause := by
  cases outcome <;> simp [error?]

theorem runs_iff {outcome : Except ε α} :
    (∃ result, outcome = .ok result) ↔ error? outcome = none := by
  cases outcome <;> simp [error?]

theorem runs_of_isOk {outcome : Except ε α} (succeeds : outcome.isOk = true) :
    ∃ result, outcome = .ok result := by
  cases outcome with
  | error cause => cases succeeds
  | ok result => exact ⟨result, rfl⟩

theorem error?_map (f : α → β) (first : Except ε α) : error? (f <$> first) = error? first := by
  cases first <;> rfl

-- The error of the earlier step goes first.
theorem error?_bind {first : Except ε α} {next : α → Except ε β} {later : Option ε}
    (each : ∀ value, first = .ok value → error? (next value) = later) :
    error? (first >>= next) = (error? first).or later := by
  cases first with
  | error cause => rfl
  | ok value => exact each value rfl

theorem run_bind {σ : Type} (first : ExceptT ε (StateM σ) α) (next : α → ExceptT ε (StateM σ) β)
    (state : σ) : (first >>= next).run.run state =
      ExceptT.bindCont next (first.run.run state).1 (first.run.run state).2 := rfl

theorem run_bind_ok {σ : Type} {first : ExceptT ε (StateM σ) α}
    {next : α → ExceptT ε (StateM σ) β} {state last : σ} {result : β} :
    (first >>= next).run.run state = (.ok result, last) ↔
      ∃ value middle, first.run.run state = (.ok value, middle) ∧
        (next value).run.run middle = (.ok result, last) := by
  rw [run_bind]
  cases ran : first.run.run state with
  | mk outcome middle =>
    cases outcome with
    | error reason =>
      constructor
      · intro failed
        cases failed
      · rintro ⟨value, other, impossible, _⟩
        cases impossible
    | ok value =>
      constructor
      · intro later
        exact ⟨value, middle, rfl, later⟩
      · rintro ⟨_, _, same, later⟩
        cases same
        exact later

theorem foldlM_runs_iff {step : β → α → Except ε β} {runs : α → Prop}
    (each : ∀ made member, (∃ next, step made member = .ok next) ↔ runs member)
    (members : List α) (start : β) :
    (∃ final, members.foldlM step start = .ok final) ↔ ∀ member ∈ members, runs member := by
  induction members generalizing start with
  | nil =>
    constructor
    · intro _ member inside
      cases inside
    · intro _
      exact ⟨start, rfl⟩
  | cons first rest ih =>
    rw [List.foldlM_cons, List.forall_mem_cons]
    constructor
    · rintro ⟨final, ran⟩
      obtain ⟨made, one, others⟩ := bind_ok.mp ran
      exact ⟨(each start first).mp ⟨made, one⟩, (ih made).mp ⟨final, others⟩⟩
    · rintro ⟨one, others⟩
      obtain ⟨made, ran⟩ := (each start first).mpr one
      obtain ⟨final, rest⟩ := (ih made).mpr others
      exact ⟨final, bind_ok.mpr ⟨made, ran, rest⟩⟩

theorem forM_ok_iff {check : α → Except ε Unit} {members : List α} :
    members.forM check = .ok () ↔ ∀ member ∈ members, check member = .ok () := by
  induction members with
  | nil => simp [List.forM, pure, Except.pure]
  | cons first rest ih =>
    rw [List.forM, bind_ok, List.forall_mem_cons, ← ih]
    constructor
    · rintro ⟨_, one, others⟩
      exact ⟨one, others⟩
    · rintro ⟨one, others⟩
      exact ⟨(), one, others⟩

end SchemaSampler.Outcome
