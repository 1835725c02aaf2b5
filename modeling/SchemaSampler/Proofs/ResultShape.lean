import SchemaSampler.Compile
import SchemaSampler.Projection
import SchemaSampler.Random.Cycle
import SchemaSampler.Proofs.Drawing
import SchemaSampler.Proofs.Keyed

-- The shape of the results of operations: objects with the selected names, nested as
-- the selections nest, and under every name what its last selection stands for.

namespace SchemaSampler

open SchemaSampler.Random

-- Of selections with the same output name the last one counts.
def lastNamed (name : String) (selections : List Selection) : Option Selection :=
  selections.reverse.find? fun selection => selection.outputName = name

variable (σ : Type) [Source σ] (compiled : Compiled)

mutual

inductive SelectionShape : String → (String → Except GenerationError TypeRef) → Selection →
    Json → Prop where
  | typeName : SelectionShape parent refOf ⟨typeNameField, label, none⟩ (.str parent)
  | whole (other : name ≠ typeNameField) (declared : refOf name = .ok ref)
      (full : compiled.ref ref = .ok strategy)
      (drawn : Yields (strategy.draw defaultLongest : Draw σ Json) value) :
      SelectionShape parent refOf ⟨name, label, none⟩ value
  | nested (other : name ≠ typeNameField) (declared : refOf name = .ok ref)
      (inside : RefShape selections ref value) :
      SelectionShape parent refOf ⟨name, label, some selections⟩ value

inductive RefShape : List Selection → TypeRef → Json → Prop where
  | nonNull (inside : RefShape selections wrapped value) :
      RefShape selections (.nonNull wrapped) value
  | list (bounded : items.length ≤
        ((compiled.policy.maxWidth wrapped.base).getD defaultLongest).toNat)
      (each : ∀ item ∈ items, RefShape selections wrapped item) :
      RefShape selections (.list wrapped) (.arr items)
  | named (declared : compiled.schema.object name = .ok object)
      (inside : ObjectShape name (Compiled.fieldRef name object) selections members) :
      RefShape selections (.named name) (.obj members)

inductive ObjectShape : String → (String → Except GenerationError TypeRef) → List Selection →
    List (String × Json) → Prop where
  | members (shaper : String → Selection)
      (names : Entries.names members = (selections.map Selection.outputName).eraseDups)
      (last : ∀ name ∈ Entries.names members, lastNamed name selections = some (shaper name))
      (each : ∀ name value, (name, value) ∈ members →
        SelectionShape parent refOf (shaper name) value) :
      ObjectShape parent refOf selections members

end

variable {σ compiled} {parent : String} {refOf : String → Except GenerationError TypeRef}
  {selections : List Selection} {members : List (String × Json)}

def Paired (shape : Selection → Json → Prop) (selection : Selection) (member : String × Json) :
    Prop :=
  member.1 = selection.outputName ∧ shape selection member.2

theorem paired_names {shape : Selection → Json → Prop}
    (paired : List.Forall₂ (Paired shape) selections members) :
    Entries.names members = selections.map Selection.outputName := by
  induction paired with
  | nil => rfl
  | cons one rest ih => exact congrArg₂ List.cons one.1 ih

theorem paired_lookup {shape : Selection → Json → Prop} {name : String} {value : Json}
    (paired : List.Forall₂ (Paired shape) selections members)
    (found : members.lookup name = some value) :
    ∃ selection, selections.find? (fun selection => selection.outputName = name) = some selection ∧
      shape selection value := by
  induction paired with
  | nil => cases found
  | @cons selection member _ _ one rest ih =>
    obtain ⟨same, shaped⟩ := one
    rw [List.lookup_cons] at found
    by_cases asked : name = member.1
    · simp only [asked, beq_self_eq_true] at found
      cases found
      refine ⟨selection, List.find?_cons_of_pos ?_, shaped⟩
      simp [asked, same]
    · simp only [beq_false_of_ne asked] at found
      obtain ⟨later, first, holds⟩ := ih found
      refine ⟨later, ?_, holds⟩
      rw [List.find?_cons_of_neg, first]
      intro equal
      exact asked (same.trans (of_decide_eq_true equal)).symm

theorem gathered_shape
    (paired : List.Forall₂ (Paired (SelectionShape σ compiled parent refOf)) selections members) :
    ObjectShape σ compiled parent refOf selections (Entries.gathered members) := by
  have counted : ∀ name value, (Entries.gathered members).lookup name = some value →
      ∃ selection, lastNamed name selections = some selection ∧
        SelectionShape σ compiled parent refOf selection value := by
    intro name value found
    rw [Entries.lookup_gathered] at found
    exact paired_lookup (List.forall₂_reverse_iff.mpr paired) found
  have distinct := Entries.gathered_distinct members
  refine .members (fun name => (lastNamed name selections).getD default) ?_ ?_ ?_
  · rw [Entries.names_gathered, paired_names paired]
  · intro name inside
    obtain ⟨⟨_, value⟩, member, rfl⟩ := List.mem_map.mp inside
    obtain ⟨selection, last, _⟩ := counted _ value (Entries.lookup_of_mem distinct member)
    rw [last]
    rfl
  · intro name value member
    obtain ⟨selection, last, shaped⟩ := counted name value (Entries.lookup_of_mem distinct member)
    rw [last]
    exact shaped

theorem through_shape {object : String → Except GenerationError Strategy} {field : String}
    (objects : ∀ type strategy, object type = .ok strategy → ∀ value,
      Yields (strategy.draw defaultLongest : Draw σ Json) value →
        RefShape σ compiled selections (.named type) value) :
    ∀ {ref strategy value}, compiled.through object parent field ref = .ok strategy →
      Yields (strategy.draw defaultLongest : Draw σ Json) value →
        RefShape σ compiled selections ref value := by
  intro ref
  induction ref with
  | named name =>
    intro strategy value made drawn
    obtain ⟨kind, classified, made⟩ := Outcome.bind_ok.mp made
    cases kind with
    | object => exact objects name strategy made value drawn
    | enum => cases made
    | scalar => cases made
    | query => cases made
  | list inner ih =>
    intro strategy value made drawn
    obtain ⟨element, below, made⟩ := Outcome.bind_ok.mp made
    rw [← Outcome.pure_ok.mp made] at drawn
    obtain ⟨items, same, bounded, each⟩ := Strategy.listOf_yields drawn
    rw [same]
    exact .list bounded fun item member => ih below (each item member)
  | nonNull inner ih =>
    intro strategy value made drawn
    exact .nonNull (ih made drawn)

mutual

theorem selected_shape : ∀ (selection : Selection) {parent : String}
    {refOf : String → Except GenerationError TypeRef} {field : String × Strategy},
    compiled.selected parent refOf selection = .ok field →
      field.1 = selection.outputName ∧ ∀ value,
        Yields (field.2.draw defaultLongest : Draw σ Json) value →
          SelectionShape σ compiled parent refOf selection value
  | ⟨name, label, none⟩, parent, refOf, field, made => by
    unfold Compiled.selected at made
    split at made
    · rename_i special
      cases made
      subst special
      refine ⟨rfl, fun value drawn => ?_⟩
      rw [Strategy.constant_yields drawn]
      exact .typeName
    · rename_i other
      obtain ⟨ref, declared, made⟩ := Outcome.bind_ok.mp made
      obtain ⟨strategy, full, made⟩ := Outcome.bind_ok.mp made
      cases made
      exact ⟨rfl, fun value drawn => .whole other declared full drawn⟩
  | ⟨name, label, some selections⟩, parent, refOf, field, made => by
    unfold Compiled.selected at made
    split at made
    · cases made
    · rename_i other
      obtain ⟨ref, declared, made⟩ := Outcome.bind_ok.mp made
      obtain ⟨strategy, through, made⟩ := Outcome.bind_ok.mp made
      cases made
      refine ⟨rfl, fun value drawn => .nested other declared (through_shape ?_ through drawn)⟩
      intro type strategy made value drawn
      obtain ⟨object, found, made⟩ := Outcome.bind_ok.mp made
      obtain ⟨fields, below, made⟩ := Outcome.bind_ok.mp made
      rw [← Outcome.pure_ok.mp made] at drawn
      obtain ⟨members, paired, same⟩ := Strategy.record_yields drawn
      rw [same]
      exact .named (Outcome.mapError_ok.mp found)
        (gathered_shape (allSelected_shape selections below paired))

theorem allSelected_shape : ∀ (selections : List Selection) {parent : String}
    {refOf : String → Except GenerationError TypeRef} {fields : List (String × Strategy)}
    {members : List (String × Json)},
    compiled.allSelected parent refOf selections = .ok fields →
      List.Forall₂ (Strategy.Drawn σ defaultLongest) fields members →
        List.Forall₂ (Paired (SelectionShape σ compiled parent refOf)) selections members
  | [], parent, refOf, fields, members, made, drawn => by
    cases made
    cases drawn
    exact .nil
  | selection :: rest, parent, refOf, fields, members, made, drawn => by
    obtain ⟨first, one, made⟩ := Outcome.bind_ok.mp made
    obtain ⟨others, later, made⟩ := Outcome.bind_ok.mp made
    cases made
    obtain ⟨named, shaped⟩ := selected_shape selection one
    cases drawn with
    | cons here there =>
      exact .cons ⟨here.1.trans named, shaped _ here.2⟩ (allSelected_shape rest later there)

end

theorem operation_shape (sampler : Sampler σ) {operation : List Selection} {strategy : Strategy}
    {value : Json} (bounded : sampler.longest = defaultLongest)
    (projected : compiled.projectOperation operation = .ok strategy)
    (drawn : (sampler.sample strategy).1 = .ok value) :
    ∃ members, value = .obj [("data", .obj members)] ∧
      ObjectShape σ compiled rootType compiled.queryRef operation members := by
  obtain ⟨fields, made, projected⟩ := Outcome.bind_ok.mp projected
  rw [← Outcome.pure_ok.mp projected] at drawn
  have yields : Yields ((Strategy.envelope fields).draw defaultLongest : Draw σ Json) value := by
    rw [← bounded]
    exact ⟨sampler.source, _, Prod.ext drawn rfl⟩
  obtain ⟨outer, enclosed, same⟩ := Strategy.record_yields yields
  cases enclosed with
  | @cons _ member _ _ data nothing =>
    cases nothing
    obtain ⟨members, paired, inner⟩ := Strategy.record_yields data.2
    have whole : member = ("data", .ofMembers members) := Prod.ext data.1 inner
    rw [whole] at same
    exact ⟨Entries.gathered members, same, gathered_shape (allSelected_shape operation made paired)⟩

def club : Setup where
  schema := ((({} : Schema).withEnum "Rank" ["novice"]).withObject "Member"
    [("rank", .named "Rank"), ("friends", .nonNull (.list (.named "Member")))]).withQuery "members"
      (.list (.named "Member"))
  policy := ({} : Policy).withWidth "Member" 2

def clubOperation : List Selection :=
  [⟨"members", some "all", some [⟨"rank", none, none⟩, ⟨"friends", none, some [⟨"rank", none, none⟩]⟩,
    ⟨"__typename", some "rank", none⟩]⟩]

def clubResult : Json :=
  .obj [("data", .obj [("all", .arr [.obj [("rank", .str "Member"),
    ("friends", .arr [.obj [("rank", .str "novice")]])]])])]

def clubSampler : Sampler Cycle where
  source := { words := [1610612736, 0, 1610612736, 0] }

theorem club_operation_shape : ∃ compiled strategy, club.compile = .ok compiled ∧
    compiled.projectOperation clubOperation = .ok strategy ∧
    (clubSampler.sample strategy).1 = .ok clubResult ∧
    ∃ members, clubResult = .obj [("data", .obj members)] ∧
      ObjectShape Cycle compiled rootType compiled.queryRef clubOperation members :=
  ⟨_, _, rfl, rfl, rfl, operation_shape clubSampler rfl rfl rfl⟩

end SchemaSampler
