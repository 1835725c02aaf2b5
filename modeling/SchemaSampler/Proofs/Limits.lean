import SchemaSampler.Policy
import SchemaSampler.Proofs.Keyed
import SchemaSampler.Proofs.Outcome

namespace SchemaSampler

abbrev WrittenLimit := LimitKind × String × Int64

namespace Limits

def groups (limits : Limits) : List (List WrittenLimit) :=
  [limits.defaultDepth.toList.map fun value => (.depth, Policy.anyName, value),
    limits.defaultWidth.toList.map fun value => (.width, Policy.anyName, value),
    limits.depth.entries.map fun entry => (.depth, entry.1, entry.2),
    limits.width.entries.map fun entry => (.width, entry.1, entry.2)]

def OutOfRange (value : Int64) : Prop := value.toInt < 0 ∨ Word.count 32 ≤ value.toInt

-- The error is that of a limit out of range in the first group that has one.
inductive FirstOffence : List (List WrittenLimit) → GenerationError → Prop where
  | here (member : (kind, name, value) ∈ group) (outside : OutOfRange value) :
      FirstOffence (group :: later) (.invalidLimit kind name value)
  | later (within : ∀ written ∈ group, ¬ OutOfRange written.2.2)
      (offence : FirstOffence later cause) : FirstOffence (group :: later) cause

inductive Judged {α : Type} (groups : List (List WrittenLimit)) (right : α → Prop) :
    Except GenerationError α → Prop where
  | accepted (within : ∀ group ∈ groups, ∀ written ∈ group, ¬ OutOfRange written.2.2)
      (holds : right value) : Judged groups right (.ok value)
  | refused (offence : FirstOffence groups cause) : Judged groups right (.error cause)

variable {α β : Type} {group : List WrittenLimit} {groups : List (List WrittenLimit)}
  {right : α → Prop} {made : β → Prop}

theorem exists_outOfRange {cause : GenerationError} (offence : FirstOffence groups cause) :
    ∃ group ∈ groups, ∃ written ∈ group, OutOfRange written.2.2 := by
  induction offence with
  | here member outside => exact ⟨_, List.mem_cons_self, _, member, outside⟩
  | later within offence ih =>
    obtain ⟨group, among, found⟩ := ih
    exact ⟨group, List.mem_cons_of_mem _ among, found⟩

theorem judged_pure {value : α} (holds : right value) :
    Judged [] right (pure value : Except GenerationError α) := by
  apply Judged.accepted _ holds
  simp

theorem judged_later {outcome : Except GenerationError β}
    (within : ∀ written ∈ group, ¬ OutOfRange written.2.2) (judged : Judged groups made outcome) :
    Judged (group :: groups) made outcome := by
  cases judged with
  | accepted others holds => exact .accepted (List.forall_mem_cons.mpr ⟨within, others⟩) holds
  | refused offence => exact .refused (.later within offence)

theorem judged_bind {first : Except GenerationError α} {next : α → Except GenerationError β}
    (one : Judged [group] right first)
    (others : ∀ value, right value → Judged groups made (next value)) :
    Judged (group :: groups) made (first >>= next) := by
  cases one with
  | accepted within holds => exact judged_later (within group (by simp)) (others _ holds)
  | refused offence =>
    apply Judged.refused
    cases offence with
    | here member outside => exact .here member outside
    | later _ nowhere => cases nowhere

theorem Judged.imp {other : α → Prop} {outcome : Except GenerationError α}
    (judged : Judged groups right outcome) (holds : ∀ value, right value → other value) :
    Judged groups other outcome := by
  cases judged with
  | accepted within rightly => exact .accepted within (holds _ rightly)
  | refused offence => exact .refused offence

-- Which of their limits is reported is not said.
theorem judged_join {first second : List WrittenLimit} {outcome : Except GenerationError α}
    (judged : Judged (first :: second :: groups) right outcome) :
    Judged ((first ++ second) :: groups) right outcome := by
  cases judged with
  | accepted within holds =>
    obtain ⟨one, within⟩ := List.forall_mem_cons.mp within
    obtain ⟨two, others⟩ := List.forall_mem_cons.mp within
    exact .accepted (List.forall_mem_cons.mpr ⟨List.forall_mem_append.mpr ⟨one, two⟩, others⟩) holds
  | refused offence =>
    apply Judged.refused
    cases offence with
    | here member outside => exact .here (List.mem_append_left _ member) outside
    | later one offence =>
      cases offence with
      | here member outside => exact .here (List.mem_append_right _ member) outside
      | later two offence => exact .later (List.forall_mem_append.mpr ⟨one, two⟩) offence

end Limits

namespace Policy

open Limits

def number (limit : UInt32) : Int := limit.toNat

theorem limit_judged (kind : LimitKind) (name : String) (value : Int64) :
    Judged [[(kind, name, value)]] (fun found => number found = value.toInt)
      (limit kind name value) := by
  unfold limit Word.uint32?
  by_cases holds : Word.holds 32 value.toInt = true
  · rw [if_pos holds]
    simp only [Word.holds, Int.ofNat_eq_natCast, Bool.and_eq_true, decide_eq_true_eq] at holds
    apply Judged.accepted
    · simp only [List.forall_mem_singleton, OutOfRange]
      omega
    · have fits : value.toInt.toNat < Word.count 32 := by omega
      rw [number, UInt32.toNat_ofNat_of_lt' fits]
      exact Int.toNat_of_nonneg holds.1
  · rw [if_neg holds]
    simp only [Word.holds, Int.ofNat_eq_natCast, Bool.and_eq_true, decide_eq_true_eq] at holds
    apply Judged.refused
    apply FirstOffence.here List.mem_cons_self
    unfold OutOfRange
    omega

theorem optionalLimit_judged (kind : LimitKind) (written : Option Int64) :
    Judged [written.toList.map fun value => (kind, anyName, value)]
      (fun found : Option UInt32 => found.map number = written.map Int64.toInt)
      (optionalLimit kind written) := by
  cases written with
  | none => exact .accepted (by simp) rfl
  | some value =>
    change Judged _ _ (some <$> limit kind anyName value)
    rw [map_eq_pure_bind]
    apply judged_bind (limit_judged kind anyName value)
    intro found same
    exact judged_pure (congrArg some same)

-- Names are distinct, so a later entry never takes the place of an earlier one.
theorem foldl_judged (kind : LimitKind) {entries : List (String × Int64)}
    (distinct : (Entries.names entries).Nodup) (found : Keyed UInt32) :
    Judged [entries.map fun entry => (kind, entry.1, entry.2)]
      (fun final : Keyed UInt32 => ∀ name, (final.get? name).map number =
        ((entries.lookup name).map Int64.toInt).or ((found.get? name).map number))
      (entries.foldlM (fun found (name, value) => do
        return found.insert name (← limit kind name value)) found) := by
  induction entries generalizing found with
  | nil => exact .accepted (by simp) fun name => by simp
  | cons entry rest ih =>
    obtain ⟨name, value⟩ := entry
    obtain ⟨fresh, others⟩ := List.nodup_cons.mp distinct
    have absent : rest.lookup name = none := by
      cases found : rest.lookup name with
      | none => rfl
      | some other => exact absurd (Entries.mem_names (Entries.mem_of_lookup found)) fresh
    rw [List.foldlM_cons, bind_assoc]
    refine judged_join (judged_bind (limit_judged kind name value) fun word same => ?_)
    rw [pure_bind]
    apply (ih others (found.insert name word)).imp
    intro final each asked
    rw [each asked, Keyed.get?_insert, List.lookup_cons]
    by_cases asks : asked = name
    · simp [asks, absent, same]
    · simp [asks, beq_false_of_ne asks]

theorem limitEntries_judged (kind : LimitKind) (written : Keyed Int64) :
    Judged [written.entries.map fun entry => (kind, entry.1, entry.2)]
      (fun found : Keyed UInt32 => ∀ name,
        (found.get? name).map number = (written.get? name).map Int64.toInt)
      (limitEntries kind written) := by
  apply (foldl_judged kind written.distinct ∅).imp
  intro final each name
  rw [each name]
  exact Option.or_none

theorem ofLimits_judged (limits : Limits) :
    Judged limits.groups
      (fun policy : Policy => ∀ name,
        number (policy.budget name) =
          (((limits.depth.get? name).or limits.defaultDepth).map Int64.toInt).getD 1 ∧
        (policy.maxWidth name).map number =
          ((limits.width.get? name).or limits.defaultWidth).map Int64.toInt)
      (ofLimits limits) := by
  unfold ofLimits groups
  refine judged_bind (optionalLimit_judged _ _) fun defaultDepth anyDepth => ?_
  refine judged_bind (optionalLimit_judged _ _) fun defaultWidth anyWidth => ?_
  refine judged_bind (limitEntries_judged _ _) fun depth eachDepth => ?_
  refine judged_bind (limitEntries_judged _ _) fun width eachWidth => ?_
  apply judged_pure
  intro name
  constructor
  · have depths : ((depth.get? name).or defaultDepth).map number =
        ((limits.depth.get? name).or limits.defaultDepth).map Int64.toInt := by
      rw [Option.map_or, Option.map_or, eachDepth, anyDepth]
    rw [← depths]
    cases own : depth.get? name <;> cases defaultDepth <;> simp [budget, own, number]
  · unfold maxWidth
    rw [Option.map_or, Option.map_or, eachWidth, anyWidth]

-- Within range every name has the limit written for it, else the default that is written, else a
-- depth of one and no width.
theorem ofLimits_exact (limits : Limits) :
    ((∃ cause, ofLimits limits = .error cause) ↔
      ∃ group ∈ limits.groups, ∃ written ∈ group, OutOfRange written.2.2) ∧
    (∀ cause, ofLimits limits = .error cause → FirstOffence limits.groups cause) ∧
    ∀ policy, ofLimits limits = .ok policy → ∀ name,
      number (policy.budget name) =
        (((limits.depth.get? name).or limits.defaultDepth).map Int64.toInt).getD 1 ∧
      (policy.maxWidth name).map number =
        ((limits.width.get? name).or limits.defaultWidth).map Int64.toInt := by
  have judged := ofLimits_judged limits
  refine ⟨⟨?_, ?_⟩, ?_, ?_⟩
  · rintro ⟨cause, failed⟩
    rw [failed] at judged
    cases judged with
    | refused offence => exact exists_outOfRange offence
  · rintro ⟨group, among, written, member, outside⟩
    cases outcome : ofLimits limits with
    | error cause => exact ⟨cause, rfl⟩
    | ok policy =>
      rw [outcome] at judged
      cases judged with
      | accepted within => exact absurd outside (within group among written member)
  · intro cause failed
    rw [failed] at judged
    cases judged with
    | refused offence => exact offence
  · intro policy made
    rw [made] at judged
    cases judged with
    | accepted _ holds => exact holds

def hall : Limits where
  defaultDepth := some 2
  depth := .ofList [("room", 0)]
  width := .ofList [("room", 3), ("stair", 1)]

theorem hall_exact : ∃ policy, ofLimits hall = .ok policy ∧ number (policy.budget "room") = 0 ∧
    number (policy.budget "stair") = 2 ∧ (policy.maxWidth "room").map number = some 3 ∧
    (policy.maxWidth "lift").map number = none := by
  obtain ⟨policy, made⟩ : ∃ policy, ofLimits hall = .ok policy := ⟨_, rfl⟩
  have each := (ofLimits_exact hall).2.2 policy made
  exact ⟨policy, made, (each "room").1, (each "stair").1, (each "room").2, (each "lift").2⟩

-- A default of 2 ^ 32, which is refused with the words for a negative one.
def boundless : Limits := { defaultDepth := some 4294967296 }

theorem boundless_refused :
    (∀ group ∈ boundless.groups, ∀ written ∈ group, 0 ≤ written.2.2.toInt) ∧
      ofLimits boundless = .error (.invalidLimit .depth anyName 4294967296) ∧
      (GenerationError.invalidLimit .depth anyName 4294967296).message =
        "Invalid depth for '*': 4294967296 (must be non-negative)" := by
  refine ⟨?_, rfl, rfl⟩
  decide

end Policy

end SchemaSampler
