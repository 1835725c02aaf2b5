import SchemaSampler.DepthState

namespace SchemaSampler.DepthState

def count (state : DepthState) (name : String) : Nat :=
  state.foldr (fun entry others => (if entry.1 = name then entry.2 else 0) + others) 0

theorem le_count_of_mem {state : DepthState} {counter : String × Nat} (member : counter ∈ state) :
    counter.2 ≤ count state counter.1 := by
  induction state with
  | nil => cases member
  | cons first rest ih =>
    simp only [count, List.foldr_cons] at ih ⊢
    rcases List.mem_cons.mp member with rfl | later
    · rw [if_pos rfl]
      exact Nat.le_add_right _ _
    · exact Nat.le_trans (ih later) (Nat.le_add_left _ _)

theorem count_enter (entered : String) (state : DepthState) (name : String) :
    count (enter entered state) name = count state name + if entered = name then 1 else 0 := by
  induction state with
  | nil => simp [enter, count]
  | cons entry rest ih =>
    obtain ⟨other, times⟩ := entry
    simp only [count] at ih
    by_cases same : entered = other
    · subst same
      simp only [enter, count, List.foldr_cons, ↓reduceIte]
      by_cases asks : entered = name <;> simp only [asks, ↓reduceIte] <;> omega
    · by_cases before : entered < other
      · simp only [enter, count, same, before, List.foldr_cons, ↓reduceIte]
        omega
      · simp only [enter, count, same, before, List.foldr_cons, ↓reduceIte, ih]
        omega

theorem count_foldl (path : List String) (state : DepthState) (name : String) :
    count (path.foldl (fun state name => enter name state) state) name =
      count state name + path.count name := by
  induction path generalizing state with
  | nil => simp
  | cons first rest ih =>
    rw [List.foldl_cons, ih, count_enter, List.count_cons]
    by_cases same : first = name
    · simp [same]
      omega
    · simp [same]

theorem count_ofPath (path : List String) (name : String) :
    count (ofPath path) name = path.count name := by
  rw [ofPath, count_foldl]
  simp [count]

-- Equal states leave the same budgets: the path itself need not be kept.
theorem count_eq_of_ofPath_eq {first second : List String} (same : ofPath first = ofPath second)
    (name : String) : first.count name = second.count name := by
  rw [← count_ofPath first name, ← count_ofPath second name, same]

theorem counter_le_count {path : List String} {counter : String × Nat}
    (member : counter ∈ ofPath path) : counter.2 ≤ path.count counter.1 :=
  count_ofPath path counter.1 ▸ le_count_of_mem member

def total (state : DepthState) : Nat := state.foldr (fun counter others => counter.2 + others) 0

theorem total_enter (entered : String) (state : DepthState) :
    total (enter entered state) = total state + 1 := by
  induction state with
  | nil => rfl
  | cons first rest ih =>
    obtain ⟨other, times⟩ := first
    simp only [total, List.foldr_cons] at ih ⊢
    unfold enter
    split
    · simp only [List.foldr_cons]
      omega
    · split
      · simp only [List.foldr_cons]
        omega
      · simp only [List.foldr_cons, ih]
        omega

theorem total_foldl (path : List String) (state : DepthState) :
    total (path.foldl (fun state name => enter name state) state) = total state + path.length := by
  induction path generalizing state with
  | nil => rfl
  | cons name rest ih => rw [List.foldl_cons, ih, total_enter, List.length_cons]; omega

theorem total_ofPath (path : List String) : total (ofPath path) = path.length := by
  rw [ofPath, total_foldl]
  exact Nat.zero_add _

end SchemaSampler.DepthState
