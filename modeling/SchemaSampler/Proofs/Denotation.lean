import SchemaSampler.Proofs.Keyed
import SchemaSampler.Proofs.Texts
import SchemaSampler.Random.Cycle

namespace SchemaSampler

open SchemaSampler.Random

namespace Strategy

-- Of fields with one name the last one counts.
inductive Denotes (longest : UInt32) : Strategy → Json → Prop where
  | constant : Denotes longest (.constant value) value
  | intRange (least : low.toInt ≤ number) (most : number ≤ high.toInt) :
      Denotes longest (.intRange low high) (.ofInt number)
  | floatRange : Denotes longest (.floatRange low high) value
  | bool : Denotes longest .bool (.bool value)
  | weightedBool : Denotes longest (.weightedBool share) (.bool value)
  | text (short : content.length ≤ most.toNat)
      (visible : ∀ c ∈ content.toList, Text.isControl c = false) :
      Denotes longest (.text most) (.str content)
  | identifier (spelled : Text.IsIdentifier content) : Denotes longest .identifier (.str content)
  | chosen (member : value ∈ values) : Denotes longest (.oneOf values) value
  | nothing : Denotes longest (.oneOf []) .null
  | list (short : items.length ≤ (own.getD longest).toNat)
      (each : ∀ item ∈ items, Denotes longest element item) :
      Denotes longest (.list element own) (.arr items)
  | record (names : Entries.names members = (Entries.names fields).eraseDups)
      (each : ∀ name value field, (name, value) ∈ members →
        fields.reverse.lookup name = some field → Denotes longest field value) :
      Denotes longest (.record fields) (.obj members)
  | custom : Denotes longest (.custom recipe) value

variable {σ : Type} [Source σ] {longest : UInt32}

theorem drawn_lookup {fields : List (String × Strategy)} {members : List (String × Json)}
    {name : String} {field : Strategy} {value : Json}
    (drawn : List.Forall₂ (Drawn σ longest) fields members)
    (declared : fields.lookup name = some field) (found : members.lookup name = some value) :
    Yields (field.draw longest : Draw σ Json) value := by
  induction drawn with
  | nil => cases declared
  | @cons first member _ _ one rest ih =>
    obtain ⟨same, yields⟩ := one
    rw [List.lookup_cons] at declared found
    rw [same] at found
    by_cases asked : name = first.1
    · simp only [asked, beq_self_eq_true, Option.some.injEq] at declared found
      subst declared found
      exact yields
    · simp only [beq_false_of_ne asked] at declared found
      exact ih declared found

theorem gathered_denoted {fields : List (String × Strategy)} {members : List (String × Json)}
    (each : ∀ field ∈ fields, ∀ value, Yields (field.2.draw longest : Draw σ Json) value →
      Denotes longest field.2 value)
    (drawn : List.Forall₂ (Drawn σ longest) fields members) :
    Denotes longest (.record fields) (.obj (Entries.gathered members)) := by
  apply Denotes.record
  · rw [Entries.names_gathered, drawn_names drawn]
  · intro name value field member last
    have found := Entries.lookup_of_mem (Entries.gathered_distinct members) member
    rw [Entries.lookup_gathered] at found
    have declared := List.mem_reverse.mp (Entries.mem_of_lookup last)
    exact each _ declared value (drawn_lookup (List.forall₂_reverse_iff.mpr drawn) last found)

theorem oneOf_denoted {values : List Json} {value : Json}
    (drawn : Yields ((oneOf values).draw longest : Draw σ Json) value) :
    Denotes longest (.oneOf values) value := by
  cases values with
  | nil =>
    obtain ⟨found, one, drawn⟩ := yields_bind drawn
    rw [yields_pure drawn, yields_pure one]
    exact .nothing
  | cons first rest => exact .chosen (oneOf_yields (List.cons_ne_nil first rest) drawn)

mutual

theorem draw_denoted : ∀ (strategy : Strategy) (value : Json),
    Yields (strategy.draw longest : Draw σ Json) value → Denotes longest strategy value
  | constant given, value, drawn => by
    rw [constant_yields drawn]
    exact .constant
  | intRange low high, value, drawn => by
    obtain ⟨number, one, drawn⟩ := yields_bind drawn
    obtain ⟨least, most⟩ := int64_yields one
    rw [yields_pure drawn]
    exact .intRange least most
  | floatRange low high, value, drawn => .floatRange
  | bool, value, drawn => by
    obtain ⟨chosen, _, drawn⟩ := yields_bind drawn
    rw [yields_pure drawn]
    exact .bool
  | weightedBool share, value, drawn => by
    obtain ⟨chosen, _, drawn⟩ := yields_bind drawn
    rw [yields_pure drawn]
    exact .weightedBool
  | text most, value, drawn => by
    obtain ⟨content, one, drawn⟩ := yields_bind drawn
    obtain ⟨short, visible⟩ := text_yields one
    rw [yields_pure drawn]
    exact .text short visible
  | identifier, value, drawn => by
    obtain ⟨content, one, drawn⟩ := yields_bind drawn
    rw [yields_pure drawn]
    exact .identifier (identifier_yields one)
  | oneOf values, value, drawn => oneOf_denoted drawn
  | list element own, value, drawn => by
    obtain ⟨items, rfl, short, each⟩ := list_yields drawn
    exact .list short fun item member => draw_denoted element item (each item member)
  | record fields, value, drawn => by
    obtain ⟨members, paired, rfl⟩ := record_yields drawn
    exact gathered_denoted (fields_denoted fields) paired
  | custom recipe, value, drawn => .custom

theorem fields_denoted : ∀ fields : List (String × Strategy), ∀ field ∈ fields, ∀ value,
    Yields (field.2.draw longest : Draw σ Json) value → Denotes longest field.2 value
  | [], field, member, value, drawn => absurd member List.not_mem_nil
  | (name, first) :: rest, field, member, value, drawn => by
    rcases List.mem_cons.mp member with rfl | later
    · exact draw_denoted first value drawn
    · exact fields_denoted rest field later value drawn

end

end Strategy

namespace Sampler

variable {σ : Type} [Source σ]

-- Each is drawn from where the one before left the source.
inductive DrawsInTurn : Sampler σ → List (String × Strategy) → List (String × Json) →
    Sampler σ → Prop where
  | nil : DrawsInTurn sampler [] [] sampler
  | cons (one : sampler.sample field = (.ok value, middle))
      (others : DrawsInTurn middle rest members last) :
      DrawsInTurn sampler ((name, field) :: rest) ((name, value) :: members) last

theorem sample_iff {strategy : Strategy} {sampler next : Sampler σ} {outcome : Except Halt Json} :
    sampler.sample strategy = (outcome, next) ↔
      ∃ after, (strategy.draw sampler.longest).run.run sampler.source = (outcome, after) ∧
        next = ⟨after, sampler.longest⟩ := by
  constructor
  · intro sampled
    cases sampled
    exact ⟨_, rfl, rfl⟩
  · rintro ⟨after, ran, rfl⟩
    exact congrArg (fun found : Except Halt Json × σ => (found.1, Sampler.mk found.2 _)) ran

theorem drawFields_iff {fields : List (String × Strategy)} {members : List (String × Json)}
    {sampler last : Sampler σ} :
    (∃ after, (Strategy.drawFields sampler.longest fields).run.run sampler.source =
      (.ok members, after) ∧ last = ⟨after, sampler.longest⟩) ↔
      DrawsInTurn sampler fields members last := by
  induction fields generalizing sampler members with
  | nil =>
    unfold Strategy.drawFields
    constructor
    · rintro ⟨after, ran, rfl⟩
      cases ran
      exact .nil
    · intro drawn
      cases drawn
      exact ⟨_, rfl, rfl⟩
  | cons field rest ih =>
    obtain ⟨name, field⟩ := field
    unfold Strategy.drawFields
    constructor
    · rintro ⟨after, ran, rfl⟩
      obtain ⟨value, middle, one, ran⟩ := Outcome.run_bind_ok.mp ran
      obtain ⟨others, _, later, ran⟩ := Outcome.run_bind_ok.mp ran
      cases ran
      exact .cons (sample_iff.mpr ⟨middle, one, rfl⟩) (ih.mp ⟨after, later, rfl⟩)
    · intro drawn
      cases drawn with
      | cons sampled others =>
        obtain ⟨middle, one, rfl⟩ := sample_iff.mp sampled
        obtain ⟨after, later, rfl⟩ := ih.mpr others
        refine ⟨after, Outcome.run_bind_ok.mpr ⟨_, middle, one, ?_⟩, rfl⟩
        exact Outcome.run_bind_ok.mpr ⟨_, after, later, rfl⟩

theorem sample_record_iff {sampler last : Sampler σ} {fields : List (String × Strategy)}
    {value : Json} : sampler.sample (.record fields) = (.ok value, last) ↔
      ∃ members, DrawsInTurn sampler fields members last ∧ value = .ofMembers members := by
  rw [sample_iff]
  unfold Strategy.draw
  constructor
  · rintro ⟨after, ran, rfl⟩
    obtain ⟨members, _, drawn, ran⟩ := Outcome.run_bind_ok.mp ran
    cases ran
    exact ⟨members, drawFields_iff.mp ⟨after, drawn, rfl⟩, rfl⟩
  · rintro ⟨members, drawn, rfl⟩
    obtain ⟨after, ran, rfl⟩ := drawFields_iff.mpr drawn
    exact ⟨after, Outcome.run_bind_ok.mpr ⟨members, after, ran, rfl⟩, rfl⟩

-- A field whose value is replaced later is sampled like any other.
theorem sample_denoted (sampler : Sampler σ) :
    (∀ strategy value, (sampler.sample strategy).1 = .ok value →
      strategy.Denotes sampler.longest value) ∧
    ∀ fields value last, sampler.sample (.record fields) = (.ok value, last) ↔
      ∃ members, DrawsInTurn sampler fields members last ∧ value = .ofMembers members := by
  constructor
  · intro strategy value drawn
    exact Strategy.draw_denoted strategy value ⟨sampler.source, _, Prod.ext drawn rfl⟩
  · intro fields value last
    exact sample_record_iff

-- A mark that is drawn as a text and replaced, and a number from the whole range.
def chest : Strategy :=
  .record [("mark", .text 2), ("weight", .intRange (-9223372036854775808) 9223372036854775807),
    ("lids", .list (.record [("open", .bool), ("open", .oneOf [.null, .str "ajar"])]) none),
    ("mark", .oneOf []), ("serial", .identifier)]

def chestSampler : Sampler Cycle where
  source := { words := [9000000000000000000, 12000000000000000000] }
  longest := 2

theorem chest_denoted : ∃ value, (chestSampler.sample chest).1 = .ok value ∧
    chest.Denotes 2 value := by
  have runs : (chestSampler.sample chest).1.isOk = true := by decide +kernel
  obtain ⟨value, drawn⟩ := Outcome.runs_of_isOk runs
  exact ⟨value, drawn, (sample_denoted chestSampler).1 chest value drawn⟩

end Sampler

end SchemaSampler
