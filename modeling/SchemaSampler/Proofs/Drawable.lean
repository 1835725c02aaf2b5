import SchemaSampler.Proofs.Validity
import SchemaSampler.Random.Cycle
import SchemaSampler.Sample

-- The width of a range of binary64 numbers may be finite and the scale by which fractions are
-- made to fill it not.

namespace SchemaSampler

open SchemaSampler.Random

section

open Float.Model

theorem swap_sizes (exponent other : Int) (mantissa beside : Nat) :
    ((compare exponent other).then (compare mantissa beside)).swap =
      (compare other exponent).then (compare beside mantissa) := by
  rw [Ordering.swap_then, Int.compare_swap, Nat.compare_swap]

theorem swap_compare (first second : UnpackedFloat) :
    (first.compare second).map Ordering.swap = second.compare first := by
  rcases first with (_ | _) | _ | (_ | _) | ⟨_ | _, _, _, _⟩ <;>
    rcases second with (_ | _) | _ | (_ | _) | ⟨_ | _, _, _, _⟩ <;>
    first
    | rfl
    | exact congrArg some (swap_sizes _ _ _ _)
    | exact congrArg (fun order => some order.swap) (swap_sizes _ _ _ _)

theorem compare_of_finite {first second : UnpackedFloat} (finite : first.isFinite = true)
    (finiteToo : second.isFinite = true) : ∃ order, first.compare second = some order := by
  rcases first with (_ | _) | _ | (_ | _) | ⟨_ | _, _, _, _⟩ <;>
    rcases second with (_ | _) | _ | (_ | _) | ⟨_ | _, _, _, _⟩ <;>
    first
    | exact ⟨_, rfl⟩
    | exact absurd finite Bool.false_ne_true
    | exact absurd finiteToo Bool.false_ne_true

end

namespace Binary64

variable {first second : Float}

def order? (first second : Float) : Option Ordering :=
  first.toModel.unpack.compare second.toModel.unpack

theorem lt_iff : first < second ↔ order? first second = some .lt := by
  change decide (first.toModel < second.toModel) = true ↔ _
  rw [decide_eq_true_iff]
  exact beq_iff_eq

theorem le_iff : first ≤ second ↔ (order? first second).any Ordering.isLE = true := by
  change decide (first.toModel ≤ second.toModel) = true ↔ _
  exact decide_eq_true_iff

theorem beq_iff : (first == second) = true ↔ order? first second = some .eq := by
  change (order? first second == some .eq) = true ↔ _
  exact beq_iff_eq

theorem lt_or_beq_of_le (most : first ≤ second) : first < second ∨ (first == second) = true := by
  have most := le_iff.mp most
  rw [lt_iff, beq_iff]
  cases found : order? first second with
  | none => simp [found] at most
  | some order => cases order <;> simp [found] at most ⊢

theorem le_of_not_lt (finite : first.isFinite = true) (finiteToo : second.isFinite = true)
    (above : ¬ second < first) : first ≤ second := by
  obtain ⟨order, found⟩ := compare_of_finite finite finiteToo
  have turned : some order.swap = order? second first := by
    rw [order?, ← swap_compare, found, Option.map_some]
  rw [lt_iff, ← turned] at above
  rw [le_iff, order?, found]
  cases order <;> simp at above ⊢

end Binary64

namespace Random

variable {σ : Type} {α β : Type}

-- A rejection loop may still run out of attempts.
def Willing (draw : Draw σ α) : Prop :=
  ∀ source, (draw.run.run source).1 ≠ .error .nothingToDraw

theorem willing_pure (value : α) : Willing (pure value : Draw σ α) := by
  intro source refused
  cases refused

theorem willing_bind {draw : Draw σ α} {next : α → Draw σ β} (first : Willing draw)
    (later : ∀ value, Willing (next value)) : Willing (draw >>= next) := by
  intro source
  have before := first source
  rw [Outcome.run_bind]
  cases outcome : (draw.run.run source).1 with
  | error reason =>
    rw [outcome] at before
    intro refused
    cases refused
    exact before rfl
  | ok value => exact later value _

theorem willing_endless : Willing (halt .endless : Draw σ α) := by
  intro source refused
  cases refused

theorem willing_repeated {draw : Draw σ α} (each : Willing draw) (count : Nat) :
    Willing (repeated draw count) := by
  induction count with
  | zero => exact willing_pure []
  | succ count ih => exact willing_bind each fun _ => willing_bind ih fun _ => willing_pure _

theorem willing_scaled {word : Draw σ Nat} (words : Willing word) (modulus range zone tries : Nat) :
    Willing (scaled word modulus range zone tries) := by
  induction tries with
  | zero => exact willing_endless
  | succ tries ih =>
    refine willing_bind words fun found => ?_
    dsimp only
    split
    · exact willing_pure _
    · exact ih

theorem willing_between {word : Draw σ Nat} (words : Willing word) (bits : Nat) {low high : Int}
    (ordered : low ≤ high) : Willing (between word bits low high) := by
  unfold between
  rw [if_neg (Int.not_lt.mpr ordered)]
  dsimp only
  split
  · exact willing_bind words fun _ => willing_pure _
  · exact willing_bind (willing_scaled words _ _ _ _) fun _ => willing_pure _

variable [Source σ]

theorem willing_word32 : Willing (word32 : Draw σ UInt32) := by
  intro source refused
  cases refused

theorem willing_word64 : Willing (word64 : Draw σ UInt64) := by
  intro source refused
  cases refused

theorem willing_natWord32 : Willing (natWord32 : Draw σ Nat) :=
  willing_bind willing_word32 fun _ => willing_pure _

theorem willing_natWord64 : Willing (natWord64 : Draw σ Nat) :=
  willing_bind willing_word64 fun _ => willing_pure _

theorem willing_below32 (high : UInt32) : Willing (below32 high : Draw σ Nat) :=
  willing_bind (willing_between willing_natWord32 32 (Int.natCast_nonneg _)) fun _ => willing_pure _

theorem willing_below64 (high : UInt64) : Willing (below64 high : Draw σ Nat) :=
  willing_bind (willing_between willing_natWord64 64 (Int.natCast_nonneg _)) fun _ => willing_pure _

theorem willing_bool : Willing (bool : Draw σ Bool) :=
  willing_bind willing_word32 fun _ => willing_pure _

theorem willing_weighted {share : Float} (least : 0.0 ≤ share) (most : share ≤ 1.0) :
    Willing (weighted share : Draw σ Bool) := by
  unfold weighted
  split
  · exact willing_pure true
  · rename_i uncertain
    rcases Binary64.lt_or_beq_of_le most with below | certain
    · rw [if_pos ⟨least, below⟩]
      exact willing_bind willing_word64 fun _ => willing_pure _
    · exact absurd certain uncertain

theorem willing_choice (values : List α) : Willing (choice values : Draw σ (Option α)) := by
  cases values with
  | nil => exact willing_pure none
  | cons first rest => exact willing_bind (willing_below32 _) fun _ => willing_pure _

theorem willing_visibleChar (tries : Nat) : Willing (visibleChar tries : Draw σ Char) := by
  induction tries with
  | zero => exact willing_endless
  | succ tries ih =>
    refine willing_bind (willing_scaled willing_natWord32 _ _ _ _) fun place => ?_
    dsimp only
    split
    · exact ih
    · exact willing_pure _

theorem willing_char : Willing (char : Draw σ Char) := by
  refine willing_bind (willing_weighted (by decide) (by decide)) fun printable => ?_
  cases printable with
  | true => exact willing_bind (willing_scaled willing_natWord32 _ _ _ _) fun _ => willing_pure _
  | false => exact willing_visibleChar _

theorem willing_text (longest : UInt64) : Willing (text longest : Draw σ String) :=
  willing_bind (willing_below64 longest) fun length =>
    willing_bind (willing_repeated willing_char length) fun _ => willing_pure _

theorem willing_identifier : Willing (identifier : Draw σ String) :=
  willing_bind (willing_repeated (willing_bind willing_word32 fun _ => willing_pure _) 16)
    fun _ => willing_pure _

theorem willing_recipe (recipe : Recipe α) : Willing (recipe.draw : Draw σ α) := by
  induction recipe with
  | give value => exact willing_pure value
  | word32 next ih => exact willing_bind willing_word32 ih
  | word64 next ih => exact willing_bind willing_word64 ih
  | bytes count next ih =>
    refine willing_bind (fun source refused => ?_) ih
    cases refused

-- The largest fraction is a little less than one, so the scale is a little more than the width.
def Scaled (low high : Float) : Prop := ((high - low) / largestFraction).isFinite = true

theorem willing_float {low high : Float} (ordered : low ≤ high) (fits : Scaled low high) :
    Willing (float low high : Draw σ Float) := by
  have found : scale? low high =
      some (fitScale low high attempts ((high - low) / largestFraction)) := by
    unfold scale?
    rw [if_pos ordered]
    exact if_pos fits
  unfold float
  rw [found]
  exact willing_bind willing_word64 fun _ => willing_pure _

theorem float_refused {low high : Float} (wide : ¬ Scaled low high) (source : σ) :
    ((float low high : Draw σ Float).run.run source).1 = .error .nothingToDraw := by
  have missing : scale? low high = none := by
    unfold scale?
    split
    · exact if_neg wide
    · rfl
  unfold float
  rw [missing]
  rfl

end Random

namespace Strategy

variable {σ : Type} [Source σ] {part inner whole : Strategy}

theorem Part.trans (outer : Part inner whole) (inside : Part part inner) : Part part whole := by
  induction outer with
  | whole => exact inside
  | element _ ih => exact .element (ih inside)
  | field member _ ih => exact .field member (ih inside)

def RangesScaled (strategy : Strategy) : Prop :=
  ∀ low high, Part (.floatRange low high) strategy → Scaled low high

mutual

theorem draw_willing (longest : UInt32) : ∀ strategy : Strategy, strategy.check = .ok () →
    strategy.RangesScaled → Willing (strategy.draw longest : Draw σ Json)
  | constant value, checked, fits => willing_pure value
  | intRange low high, checked, fits => by
    have ordered : low.toInt ≤ high.toInt := by
      unfold check at checked
      split at checked
      · cases checked
      · rename_i above
        exact Int64.le_iff_toInt_le.mp (Int64.not_lt.mp above)
    exact willing_bind (willing_between willing_natWord64 64 ordered) fun _ => willing_pure _
  | floatRange low high, checked, fits => by
    have ordered : low ≤ high := by
      unfold check at checked
      split at checked
      · cases checked
      · rename_i finite
        split at checked
        · cases checked
        · rename_i above
          simp only [Bool.not_eq_true, Bool.not_eq_false', Bool.and_eq_true] at finite
          exact Binary64.le_of_not_lt finite.1 finite.2 above
    exact willing_bind (willing_float ordered (fits low high .whole)) fun _ => willing_pure _
  | bool, checked, fits => willing_bind willing_bool fun _ => willing_pure _
  | weightedBool share, checked, fits => by
    unfold check at checked
    split at checked
    · rename_i inside
      exact willing_bind (willing_weighted inside.1 inside.2) fun _ => willing_pure _
    · cases checked
  | text most, checked, fits => willing_bind (willing_text most) fun _ => willing_pure _
  | identifier, checked, fits => willing_bind willing_identifier fun _ => willing_pure _
  | oneOf values, checked, fits => willing_bind (willing_choice values) fun _ => willing_pure _
  | list element own, checked, fits => by
    unfold check at checked
    have each := draw_willing longest element checked fun low high inside =>
      fits low high (.element inside)
    exact willing_bind (willing_below32 _) fun length =>
      willing_bind (willing_repeated each length) fun _ => willing_pure _
  | record fields, checked, fits => by
    have each := drawFields_willing longest fields (record_checked.mp checked)
      fun field member low high inside => fits low high (.field member inside)
    exact willing_bind each fun _ => willing_pure _
  | custom recipe, checked, fits => willing_recipe recipe

theorem drawFields_willing (longest : UInt32) : ∀ fields : List (String × Strategy),
    (∀ field ∈ fields, field.2.check = .ok ()) → (∀ field ∈ fields, field.2.RangesScaled) →
      Willing (drawFields longest fields : Draw σ (List (String × Json)))
  | [], checked, fits => willing_pure []
  | (name, field) :: rest, checked, fits => by
    rw [List.forall_mem_cons] at checked fits
    exact willing_bind (draw_willing longest field checked.1 fits.1) fun _ =>
      willing_bind (drawFields_willing longest rest checked.2 fits.2) fun _ => willing_pure _

end

theorem floatRange_refused {low high : Float} (wide : ¬ Scaled low high) (sampler : Sampler σ) :
    (sampler.sample (.floatRange low high)).1 = .error .nothingToDraw := by
  unfold Sampler.sample draw
  change (((float low high : Draw σ Float) >>= _).run.run sampler.source).1 = _
  rw [Outcome.run_bind, float_refused wide]
  rfl

-- The check looks at widths alone.
theorem drawable_iff_scaled {strategy : Strategy} (checked : strategy.check = .ok ()) :
    (∀ part, Part part strategy → ∀ {σ : Type} [Source σ] (sampler : Sampler σ),
      (sampler.sample part).1 ≠ .error .nothingToDraw) ↔ strategy.RangesScaled := by
  constructor
  · intro drawable low high inside
    refine Classical.byContradiction fun wide => ?_
    let sampler : Sampler Cycle := { source := { words := [] } }
    exact drawable _ inside sampler (floatRange_refused wide sampler)
  · intro fits part inside σ _ sampler
    exact draw_willing sampler.longest part (inside.checked checked)
      (fun low high deeper => fits low high (inside.trans deeper)) sampler.source

def weather : Strategy :=
  .record [("degrees", .floatRange (-90.0) 60.0), ("rain", .weightedBool 0.25),
    ("hours", .list (.list (.intRange 0 200) none) (some 24))]

theorem weather_drawable : weather.check = .ok () ∧ weather.RangesScaled ∧
    ∀ sampler : Sampler Cycle, (sampler.sample weather).1 ≠ .error .nothingToDraw := by
  have checked : weather.check = .ok () := rfl
  have fits : weather.RangesScaled := by
    intro low high inside
    cases inside with
    | field member deeper =>
      simp only [List.mem_cons, Prod.mk.injEq, List.not_mem_nil, or_false] at member
      rcases member with ⟨_, rfl⟩ | ⟨_, rfl⟩ | ⟨_, rfl⟩
      · cases deeper
        unfold Scaled
        decide +kernel
      · cases deeper
      · rcases deeper with _ | ⟨_ | ⟨⟨⟩⟩⟩
  exact ⟨checked, fits, (drawable_iff_scaled checked).mpr fits weather .whole⟩

def largest : Float := Float.ofBits 0x7FEFFFFFFFFFFFFF

theorem widest_range_refused : (floatRange 0.0 largest).check = .ok () ∧
    ∀ sampler : Sampler Cycle,
      (sampler.sample (.floatRange 0.0 largest)).1 = .error .nothingToDraw := by
  have wide : ¬ Scaled 0.0 largest := by
    unfold Scaled
    decide +kernel
  have checked : (floatRange 0.0 largest).check.isOk = true := by decide +kernel
  obtain ⟨⟨⟩, passes⟩ := Outcome.runs_of_isOk checked
  exact ⟨passes, floatRange_refused wide⟩

end Strategy

end SchemaSampler
