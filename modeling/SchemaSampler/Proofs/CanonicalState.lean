import SchemaSampler.Proofs.DepthState
import SchemaSampler.Proofs.Descent

namespace SchemaSampler.DepthState

structure Canonical (state : DepthState) : Prop where
  sorted : state.Pairwise fun counter later => counter.1 < later.1
  positive : ∀ counter ∈ state, 0 < counter.2

theorem name_of_enter {entered : String} {state : DepthState} {counter : String × Nat}
    (member : counter ∈ enter entered state) :
    counter.1 = entered ∨ ∃ old ∈ state, counter.1 = old.1 := by
  induction state with
  | nil =>
    rw [enter, List.mem_singleton] at member
    exact .inl (member ▸ rfl)
  | cons first rest ih =>
    obtain ⟨other, times⟩ := first
    unfold enter at member
    split at member
    · rename_i same
      rcases List.mem_cons.mp member with rfl | later
      · exact .inl same.symm
      · exact .inr ⟨counter, List.mem_cons_of_mem _ later, rfl⟩
    · split at member
      · rcases List.mem_cons.mp member with rfl | later
        · exact .inl rfl
        · exact .inr ⟨counter, later, rfl⟩
      · rcases List.mem_cons.mp member with rfl | later
        · exact .inr ⟨(other, times), by simp, rfl⟩
        · rcases ih later with same | ⟨old, inside, same⟩
          · exact .inl same
          · exact .inr ⟨old, List.mem_cons_of_mem _ inside, same⟩

theorem sorted_enter (entered : String) {state : DepthState}
    (sorted : state.Pairwise fun counter later => counter.1 < later.1) :
    (enter entered state).Pairwise fun counter later => counter.1 < later.1 := by
  induction state with
  | nil => simp [enter]
  | cons first rest ih =>
    obtain ⟨other, times⟩ := first
    obtain ⟨least, ordered⟩ := List.pairwise_cons.mp sorted
    unfold enter
    by_cases same : entered = other
    · rw [if_pos same]
      exact List.pairwise_cons.mpr ⟨least, ordered⟩
    · by_cases before : entered < other
      · rw [if_neg same, if_pos before]
        refine List.pairwise_cons.mpr ⟨?_, sorted⟩
        intro counter member
        rcases List.mem_cons.mp member with rfl | later
        · exact before
        · exact String.lt_trans before (least counter later)
      · rw [if_neg same, if_neg before]
        have after : other < entered :=
          Std.lt_of_le_of_ne (String.not_lt.mp before) fun equal => same equal.symm
        refine List.pairwise_cons.mpr ⟨?_, ih ordered⟩
        intro counter member
        rcases name_of_enter member with equal | ⟨old, inside, equal⟩
        · exact equal ▸ after
        · exact equal ▸ least old inside

theorem positive_enter (entered : String) {state : DepthState}
    (positive : ∀ counter ∈ state, 0 < counter.2) :
    ∀ counter ∈ enter entered state, 0 < counter.2 := by
  induction state with
  | nil => simp [enter]
  | cons first rest ih =>
    obtain ⟨here, others⟩ := List.forall_mem_cons.mp positive
    unfold enter
    split
    · exact List.forall_mem_cons.mpr ⟨Nat.succ_pos _, others⟩
    · split
      · exact List.forall_mem_cons.mpr ⟨Nat.one_pos, positive⟩
      · exact List.forall_mem_cons.mpr ⟨here, ih others⟩

theorem canonical_foldl (path : List String) {state : DepthState} (canonical : Canonical state) :
    Canonical (path.foldl (fun state name => enter name state) state) := by
  induction path generalizing state with
  | nil => exact canonical
  | cons name rest ih =>
    exact ih ⟨sorted_enter name canonical.sorted, positive_enter name canonical.positive⟩

theorem canonical_ofPath (path : List String) : Canonical (ofPath path) :=
  canonical_foldl path ⟨.nil, nofun⟩

theorem count_cons (counter : String × Nat) (rest : DepthState) (name : String) :
    count (counter :: rest) name = (if counter.1 = name then counter.2 else 0) + count rest name :=
  rfl

theorem count_absent {state : DepthState} {name : String}
    (absent : ∀ counter ∈ state, counter.1 ≠ name) : count state name = 0 := by
  induction state with
  | nil => rfl
  | cons first rest ih =>
    obtain ⟨apart, others⟩ := List.forall_mem_cons.mp absent
    rw [count_cons, if_neg apart, ih others]

theorem Canonical.mem_iff {state : DepthState} (canonical : Canonical state) {name : String}
    {times : Nat} : (name, times) ∈ state ↔ 0 < times ∧ count state name = times := by
  induction state with
  | nil =>
    constructor
    · nofun
    · rintro ⟨positive, none⟩
      exact absurd none (Nat.ne_of_lt positive)
  | cons first rest ih =>
    obtain ⟨other, number⟩ := first
    obtain ⟨least, ordered⟩ := List.pairwise_cons.mp canonical.sorted
    obtain ⟨here, others⟩ := List.forall_mem_cons.mp canonical.positive
    rw [List.mem_cons, count_cons]
    by_cases same : other = name
    · subst same
      have once : ∀ counter ∈ rest, counter.1 ≠ other := by
        intro counter later equal
        exact String.lt_irrefl _ (equal ▸ least counter later)
      have apart : (other, times) ∉ rest := fun later => once _ later rfl
      rw [if_pos rfl, count_absent once, Nat.add_zero]
      constructor
      · rintro (equal | later)
        · cases equal
          exact ⟨here, rfl⟩
        · exact absurd later apart
      · rintro ⟨_, rfl⟩
        exact .inl rfl
    · have apart : (name, times) ≠ (other, number) := fun equal => same (Prod.mk.inj equal).1.symm
      rw [if_neg same, Nat.zero_add, ← ih ⟨ordered, others⟩]
      simp [apart]

theorem Canonical.nodup {state : DepthState} (canonical : Canonical state) : state.Nodup := by
  refine canonical.sorted.imp ?_
  intro counter later before equal
  exact String.lt_irrefl _ (equal ▸ before)

theorem Canonical.eq_of_count {first second : DepthState} (one : Canonical first)
    (two : Canonical second) (same : ∀ name, count first name = count second name) :
    first = second := by
  have members : ∀ counter, counter ∈ first ↔ counter ∈ second := by
    rintro ⟨name, times⟩
    rw [one.mem_iff, two.mem_iff, same]
  have permuted := (List.perm_ext_iff_of_nodup one.nodup two.nodup).mpr members
  refine permuted.eq_of_pairwise ?_ one.sorted two.sorted
  intro counter other _ _ before after
  exact absurd (String.lt_trans before after) (String.lt_irrefl _)

theorem ofPath_eq_iff {first second : List String} :
    ofPath first = ofPath second ↔ first.Perm second := by
  rw [List.perm_iff_count]
  constructor
  · exact count_eq_of_ofPath_eq
  · intro same
    refine (canonical_ofPath first).eq_of_count (canonical_ofPath second) fun name => ?_
    rw [count_ofPath, count_ofPath, same]

theorem ofPath_append_congr {first second : List String} (same : ofPath first = ofPath second)
    (more : List String) : ofPath (first ++ more) = ofPath (second ++ more) :=
  ofPath_eq_iff.mpr ((ofPath_eq_iff.mp same).append_right more)

theorem remaining_eq (policy : Policy) (name : String) (path : List String) :
    policy.remaining name path = policy.allowed name - count (ofPath path) name := by
  rw [Policy.remaining, count_ofPath]

section Words

-- Counters of 32 bits start over after the largest number.
def enterWord (name : String) : List (String × UInt32) → List (String × UInt32)
  | [] => [(name, 1)]
  | (other, count) :: rest =>
    if name = other then (other, count + 1) :: rest
    else if name < other then (name, 1) :: (other, count) :: rest
    else (other, count) :: enterWord name rest

def wordsOfPath (path : List String) : List (String × UInt32) :=
  path.foldl (fun state name => enterWord name state) []

def toWord (counter : String × Nat) : String × UInt32 := (counter.1, UInt32.ofNat counter.2)

def ofWord (counter : String × UInt32) : String × Nat := (counter.1, counter.2.toNat)

theorem enterWord_map (name : String) (state : DepthState) :
    enterWord name (state.map toWord) = (enter name state).map toWord := by
  induction state with
  | nil => rfl
  | cons first rest ih =>
    obtain ⟨other, times⟩ := first
    simp only [List.map_cons, toWord, enterWord, enter] at ih ⊢
    split
    · simp [toWord, UInt32.ofNat_add]
    · split
      · rfl
      · rw [ih]
        rfl

theorem foldl_enterWord (path : List String) (state : DepthState) :
    path.foldl (fun state name => enterWord name state) (state.map toWord) =
      (path.foldl (fun state name => enter name state) state).map toWord := by
  induction path generalizing state with
  | nil => rfl
  | cons name rest ih => rw [List.foldl_cons, List.foldl_cons, enterWord_map, ih]

theorem wordsOfPath_eq (path : List String) : wordsOfPath path = (ofPath path).map toWord :=
  foldl_enterWord path []

theorem wordsOfPath_exact {path : List String} (few : ∀ name, path.count name < Word.count 32) :
    (wordsOfPath path).map ofWord = ofPath path := by
  rw [wordsOfPath_eq, List.map_map]
  refine (List.map_congr_left fun counter member => ?_).trans (List.map_id _)
  have small : counter.2 < 2 ^ 32 := Nat.lt_of_le_of_lt (counter_le_count member) (few counter.1)
  change (counter.1, (UInt32.ofNat counter.2).toNat) = counter
  rw [UInt32.toNat_ofNat_of_lt' small]

theorem wordsOfPath_eq_iff {first second : List String}
    (few : ∀ name, first.count name < Word.count 32)
    (fewOther : ∀ name, second.count name < Word.count 32) :
    wordsOfPath first = wordsOfPath second ↔ first.Perm second := by
  rw [← ofPath_eq_iff]
  constructor
  · intro same
    rw [← wordsOfPath_exact few, same, wordsOfPath_exact fewOther]
  · intro same
    rw [wordsOfPath_eq, wordsOfPath_eq, same]

theorem count_enter_lt {path : List String} (few : ∀ name, path.count name < Word.count 32 - 1)
    (entered name : String) : (path ++ [entered]).count name < Word.count 32 := by
  have one : [entered].count name ≤ 1 := List.count_le_length
  have most := few name
  rw [List.count_append]
  omega

end Words

-- A state is the same for two paths exactly if they are permutations of each other. Counters of
-- 32 bits hold it with room for one more entry.
theorem state_canonical {first second : List String}
    (few : ∀ name, first.count name < Word.count 32 - 1)
    (fewOther : ∀ name, second.count name < Word.count 32 - 1) :
    (ofPath first = ofPath second ↔ first.Perm second) ∧
    (wordsOfPath first = wordsOfPath second ↔ first.Perm second) ∧
    (ofPath first).Pairwise (fun counter later => counter.1 < later.1) ∧
    (∀ counter ∈ ofPath first, 0 < counter.2) ∧
    (wordsOfPath first).map ofWord = ofPath first ∧
    (∀ name, (wordsOfPath (first ++ [name])).map ofWord = ofPath (first ++ [name])) ∧
    (∀ (policy : Policy) name,
      policy.remaining name first = policy.allowed name - count (ofPath first) name) ∧
    (ofPath first = ofPath second →
      (∀ (policy : Policy) name,
        policy.remaining name first = policy.remaining name second ∧
        policy.mayEnter name first = policy.mayEnter name second) ∧
      (∀ name, ofPath (first ++ [name]) = ofPath (second ++ [name]) ∧
        wordsOfPath (first ++ [name]) = wordsOfPath (second ++ [name])) ∧
      ∀ more, ofPath (first ++ more) = ofPath (second ++ more)) := by
  have canonical := canonical_ofPath first
  have fits : ∀ name, first.count name < Word.count 32 := fun name =>
    Nat.lt_of_lt_of_le (few name) (Nat.sub_le _ _)
  have fitsOther : ∀ name, second.count name < Word.count 32 := fun name =>
    Nat.lt_of_lt_of_le (fewOther name) (Nat.sub_le _ _)
  refine ⟨ofPath_eq_iff, wordsOfPath_eq_iff fits fitsOther, canonical.sorted, canonical.positive,
    wordsOfPath_exact fits, fun name => wordsOfPath_exact (count_enter_lt few name),
    fun policy name => remaining_eq policy name first, fun same => ?_⟩
  have counts := count_eq_of_ofPath_eq same
  refine ⟨fun policy name => ⟨Policy.remaining_congr (counts name), Policy.mayEnter_congr (counts name)⟩,
    fun name => ?_, ofPath_append_congr same⟩
  have deeper := ofPath_append_congr same [name]
  refine ⟨deeper, ?_⟩
  rw [wordsOfPath_eq, wordsOfPath_eq, deeper]

theorem squad_state_canonical :
    (∀ name, ["team", "player", "team"].count name < Word.count 32 - 1) ∧
    (∀ name, ["player", "team", "team"].count name < Word.count 32 - 1) ∧
    ofPath ["team", "player", "team"] = ofPath ["player", "team", "team"] ∧
    (∀ (policy : Policy) name, policy.remaining name ["team", "player", "team"] =
      policy.remaining name ["player", "team", "team"]) ∧
    ∀ more, ofPath (["team", "player", "team"] ++ more) =
      ofPath (["player", "team", "team"] ++ more) := by
  have few (path : List String) (short : path.length = 3) (name : String) :
      path.count name < Word.count 32 - 1 := by
    have most : path.count name ≤ path.length := List.count_le_length
    have wide : 3 < Word.count 32 - 1 := by decide
    omega
  have permuted : ["team", "player", "team"].Perm ["player", "team", "team"] := .swap _ _ _
  obtain ⟨same, _, _, _, _, _, _, alike⟩ := state_canonical
    (few ["team", "player", "team"] rfl) (few ["player", "team", "team"] rfl)
  obtain ⟨budgets, _, deeper⟩ := alike (same.mpr permuted)
  exact ⟨few _ rfl, few _ rfl, same.mpr permuted, fun policy name => (budgets policy name).1, deeper⟩

end SchemaSampler.DepthState
