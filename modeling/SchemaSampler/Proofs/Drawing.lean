import Mathlib.Data.List.Forall2
import SchemaSampler.Sample
import SchemaSampler.Proofs.Outcome

namespace SchemaSampler

open SchemaSampler.Random

variable {σ : Type} {α β : Type}

namespace Random

def Yields (draw : Draw σ α) (value : α) : Prop :=
  ∃ before after, draw.run.run before = (.ok value, after)

theorem yields_pure {given value : α} (drawn : Yields (pure given : Draw σ α) value) :
    value = given := by
  obtain ⟨before, after, result⟩ := drawn
  cases result
  rfl

theorem yields_bind {draw : Draw σ α} {next : α → Draw σ β} {result : β}
    (drawn : Yields (draw >>= next) result) :
    ∃ value, Yields draw value ∧ Yields (next value) result := by
  obtain ⟨before, after, ran⟩ := drawn
  obtain ⟨value, middle, first, later⟩ := Outcome.run_bind_ok.mp ran
  exact ⟨value, ⟨before, middle, first⟩, ⟨middle, after, later⟩⟩

theorem not_yields_halt {reason : Halt} {value : α} : ¬ Yields (halt reason : Draw σ α) value := by
  rintro ⟨before, after, result⟩
  cases result

theorem repeated_yields {draw : Draw σ α} {count : Nat} {values : List α}
    (drawn : Yields (repeated draw count) values) :
    values.length = count ∧ ∀ value ∈ values, Yields draw value := by
  induction count generalizing values with
  | zero =>
    cases yields_pure drawn
    exact ⟨rfl, by simp⟩
  | succ count ih =>
    obtain ⟨first, one, drawn⟩ := yields_bind drawn
    obtain ⟨rest, later, drawn⟩ := yields_bind drawn
    obtain ⟨length, each⟩ := ih later
    cases yields_pure drawn
    refine ⟨congrArg Nat.succ length, fun value member => ?_⟩
    rcases List.mem_cons.mp member with same | inside
    · rw [same]
      exact one
    · exact each value inside

theorem scaled_yields {word : Draw σ Nat} {modulus range zone attempts number : Nat}
    (drawn : Yields (scaled word modulus range zone attempts) number) :
    ∃ found, Yields word found ∧ number = found * range / modulus := by
  induction attempts with
  | zero => exact absurd drawn not_yields_halt
  | succ attempts ih =>
    obtain ⟨found, one, drawn⟩ := yields_bind drawn
    dsimp only at drawn
    split at drawn
    · exact ⟨found, one, yields_pure drawn⟩
    · exact ih drawn

theorem scaled_below {word : Draw σ Nat} {modulus range zone attempts number : Nat}
    (small : ∀ found, Yields word found → found < modulus) (any : 0 < range)
    (drawn : Yields (scaled word modulus range zone attempts) number) : number < range := by
  obtain ⟨found, one, rfl⟩ := scaled_yields drawn
  exact Nat.div_lt_of_lt_mul (Nat.mul_lt_mul_of_pos_right (small found one) any)

-- A full range takes the word itself, which may not lie outside of it.
theorem between_yields {word : Draw σ Nat} {bits : Nat} {low high number : Int}
    (small : ∀ found, Yields word found → found < Word.count bits)
    (least : -Word.count bits ≤ low) (most : high < Word.count bits)
    (drawn : Yields (between word bits low high) number) :
    low ≤ number ∧ number ≤ high := by
  unfold between at drawn
  split at drawn
  · exact absurd drawn not_yields_halt
  · dsimp only at drawn
    split at drawn
    · rename_i ordered full
      obtain ⟨found, one, drawn⟩ := yields_bind drawn
      have below := small found one
      have same := yields_pure drawn
      rw [Int.ofNat_eq_natCast] at same
      split at same
      · omega
      · omega
    · obtain ⟨place, one, drawn⟩ := yields_bind drawn
      have inside := scaled_below small (by omega) one
      have same := yields_pure drawn
      omega

variable [Source σ]

theorem natWord32_yields {number : Nat} (drawn : Yields (natWord32 : Draw σ Nat) number) :
    number < Word.count 32 := by
  obtain ⟨word, _, drawn⟩ := yields_bind drawn
  rw [yields_pure drawn]
  exact word.toNat_lt

theorem natWord64_yields {number : Nat} (drawn : Yields (natWord64 : Draw σ Nat) number) :
    number < Word.count 64 := by
  obtain ⟨word, _, drawn⟩ := yields_bind drawn
  rw [yields_pure drawn]
  exact word.toNat_lt

theorem below32_yields {high : UInt32} {number : Nat}
    (drawn : Yields (below32 high : Draw σ Nat) number) : number ≤ high.toNat := by
  obtain ⟨found, one, drawn⟩ := yields_bind drawn
  have fits : Int.ofNat high.toNat < Word.count 32 := Int.ofNat_lt.mpr high.toNat_lt
  obtain ⟨_, bounded⟩ := between_yields (fun _ => natWord32_yields) (by omega) fits one
  rw [yields_pure drawn]
  exact Int.toNat_le.mpr bounded

theorem below64_yields {high : UInt64} {number : Nat}
    (drawn : Yields (below64 high : Draw σ Nat) number) : number ≤ high.toNat := by
  obtain ⟨found, one, drawn⟩ := yields_bind drawn
  have fits : Int.ofNat high.toNat < Word.count 64 := Int.ofNat_lt.mpr high.toNat_lt
  obtain ⟨_, bounded⟩ := between_yields (fun _ => natWord64_yields) (by omega) fits one
  rw [yields_pure drawn]
  exact Int.toNat_le.mpr bounded

theorem int64_yields {low high : Int64} {number : Int}
    (drawn : Yields (int64 low high : Draw σ Int) number) :
    low.toInt ≤ number ∧ number ≤ high.toInt := by
  have least : -Word.count 64 ≤ low.toInt := by
    refine Int.le_trans ?_ low.minValue_le_toInt
    decide
  have most : high.toInt < Word.count 64 := by
    refine Int.lt_of_le_of_lt high.toInt_le ?_
    decide
  exact between_yields (fun _ => natWord64_yields) least most drawn

theorem choice_yields {first : α} {rest : List α} {found : Option α}
    (drawn : Yields (choice (first :: rest) : Draw σ (Option α)) found) :
    ∃ value ∈ first :: rest, found = some value := by
  obtain ⟨place, one, drawn⟩ := yields_bind drawn
  have most : place ≤ rest.length := by
    have bounded := below32_yields one
    rw [UInt32.toNat_ofNat'] at bounded
    exact Nat.le_trans bounded (Nat.mod_le _ _)
  have inside : place < (first :: rest).length := Nat.lt_succ_of_le most
  refine ⟨(first :: rest)[place], List.getElem_mem inside, ?_⟩
  rw [yields_pure drawn]
  exact List.getElem?_eq_getElem inside

end Random

variable [Source σ] {longest : UInt32}

namespace Strategy

theorem constant_yields {given value : Json}
    (drawn : Yields ((constant given).draw longest : Draw σ Json) value) : value = given :=
  yields_pure drawn

theorem oneOf_yields {values : List Json} {value : Json} (any : values ≠ [])
    (drawn : Yields ((oneOf values).draw longest : Draw σ Json) value) : value ∈ values := by
  obtain ⟨found, one, drawn⟩ := yields_bind drawn
  rw [yields_pure drawn]
  cases values with
  | nil => exact absurd rfl any
  | cons first rest =>
    obtain ⟨chosen, member, rfl⟩ := choice_yields one
    exact member

theorem list_yields {element : Strategy} {own : Option UInt32} {value : Json}
    (drawn : Yields ((list element own).draw longest : Draw σ Json) value) :
    ∃ items, value = .arr items ∧ items.length ≤ (own.getD longest).toNat ∧
      ∀ item ∈ items, Yields (element.draw longest : Draw σ Json) item := by
  unfold draw at drawn
  obtain ⟨length, one, drawn⟩ := yields_bind drawn
  obtain ⟨items, two, drawn⟩ := yields_bind drawn
  obtain ⟨exactly, each⟩ := repeated_yields two
  refine ⟨items, yields_pure drawn, ?_, each⟩
  rw [exactly]
  exact below32_yields one

theorem listOf_yields {element : Strategy} {own : Option UInt32} {value : Json}
    (drawn : Yields ((listOf element own).draw longest : Draw σ Json) value) :
    ∃ items, value = .arr items ∧ items.length ≤ (own.getD longest).toNat ∧
      ∀ item ∈ items, Yields (element.draw longest : Draw σ Json) item := by
  unfold listOf at drawn
  split at drawn
  · exact ⟨[], constant_yields drawn, Nat.zero_le _, by simp⟩
  · exact list_yields drawn

def Drawn (σ : Type) [Source σ] (longest : UInt32) (field : String × Strategy)
    (member : String × Json) : Prop :=
  member.1 = field.1 ∧ Yields (field.2.draw longest : Draw σ Json) member.2

theorem fields_yield {fields : List (String × Strategy)} {members : List (String × Json)}
    (drawn : Yields (drawFields longest fields : Draw σ _) members) :
    List.Forall₂ (Drawn σ longest) fields members := by
  induction fields generalizing members with
  | nil =>
    unfold drawFields at drawn
    cases yields_pure drawn
    exact .nil
  | cons field rest ih =>
    obtain ⟨name, strategy⟩ := field
    unfold drawFields at drawn
    obtain ⟨value, one, drawn⟩ := yields_bind drawn
    obtain ⟨others, later, drawn⟩ := yields_bind drawn
    cases yields_pure drawn
    exact .cons ⟨rfl, one⟩ (ih later)

theorem drawn_names {fields : List (String × Strategy)} {members : List (String × Json)}
    (drawn : List.Forall₂ (Drawn σ longest) fields members) :
    Entries.names members = Entries.names fields := by
  induction drawn with
  | nil => rfl
  | cons one rest ih => exact congrArg₂ List.cons one.1 ih

theorem drawn_member {fields : List (String × Strategy)} {members : List (String × Json)}
    (drawn : List.Forall₂ (Drawn σ longest) fields members) {member : String × Json}
    (inside : member ∈ members) :
    ∃ strategy, (member.1, strategy) ∈ fields ∧
      Yields (strategy.draw longest : Draw σ Json) member.2 := by
  induction drawn with
  | nil => cases inside
  | @cons field _ _ _ one rest ih =>
    rcases List.mem_cons.mp inside with rfl | later
    · exact ⟨field.2, by simp [one.1], one.2⟩
    · obtain ⟨strategy, among, yields⟩ := ih later
      exact ⟨strategy, List.mem_cons_of_mem _ among, yields⟩

theorem record_yields {fields : List (String × Strategy)} {value : Json}
    (drawn : Yields ((record fields).draw longest : Draw σ Json) value) :
    ∃ members, List.Forall₂ (Drawn σ longest) fields members ∧ value = .ofMembers members := by
  unfold draw at drawn
  obtain ⟨members, one, drawn⟩ := yields_bind drawn
  exact ⟨members, fields_yield one, yields_pure drawn⟩

end Strategy

end SchemaSampler
