import SchemaSampler.Proofs.Wrapping

-- Strategies given for scalars are checked where they are looked up; what is built over them
-- passes the check as well.

namespace SchemaSampler

namespace Strategy

inductive Part : Strategy → Strategy → Prop where
  | whole : Part strategy strategy
  | element (inside : Part part element) : Part part (.list element longest)
  | field (member : (name, field) ∈ fields) (inside : Part part field) :
      Part part (.record fields)

variable {strategy element part whole : Strategy} {name : String}

theorem checkFields_ok_iff {fields : List (String × Strategy)} :
    checkFields fields = .ok () ↔ ∀ field ∈ fields, field.2.check = .ok () := by
  induction fields with
  | nil => simp [checkFields]
  | cons field rest ih =>
    unfold checkFields
    rw [List.forall_mem_cons, ← ih, Outcome.bind_ok]
    constructor
    · rintro ⟨_, first, others⟩
      exact ⟨first, others⟩
    · rintro ⟨first, others⟩
      exact ⟨(), first, others⟩

theorem record_checked {fields : List (String × Strategy)} :
    (record fields).check = .ok () ↔ ∀ field ∈ fields, field.2.check = .ok () := by
  rw [check]
  exact checkFields_ok_iff

theorem listOf_checked (longest : Option UInt32) (checked : element.check = .ok ()) :
    (listOf element longest).check = .ok () := by
  unfold listOf
  split
  · rfl
  · rw [check]
    exact checked

theorem envelope_checked {fields : List (String × Strategy)}
    (checked : ∀ field ∈ fields, field.2.check = .ok ()) : (envelope fields).check = .ok () := by
  unfold envelope
  rw [record_checked]
  intro field member
  cases List.mem_singleton.mp member
  exact record_checked.mpr checked

theorem single_checked {outcome : Except GenerationError Strategy}
    (inside : ∀ result, outcome = .ok result → result.check = .ok ())
    (made : (outcome >>= fun result => pure (envelope [(name, result)])) = .ok strategy) :
    strategy.check = .ok () := by
  obtain ⟨result, given, made⟩ := Outcome.bind_ok.mp made
  cases made
  refine envelope_checked fun field member => ?_
  cases List.mem_singleton.mp member
  exact inside result given

-- A fault is found however deep it is hidden.
theorem Part.checked (inside : Part part whole) (checked : whole.check = .ok ()) :
    part.check = .ok () := by
  induction inside with
  | whole => exact checked
  | element inside ih =>
    rw [check] at checked
    exact ih checked
  | field member inside ih => exact ih (record_checked.mp checked _ member)

theorem builtin_checked (found : builtin? name = some strategy) : strategy.check = .ok () := by
  unfold builtin? at found
  split at found <;> cases found <;> rfl

end Strategy

theorem Scalars.strategy_checked {scalars : Scalars} {name : String} {strategy : Strategy}
    (found : scalars.strategy name = .ok strategy) : strategy.check = .ok () := by
  unfold Scalars.strategy at found
  split at found
  · obtain ⟨_, checked, rfl⟩ := Outcome.map_ok.mp found
    exact Outcome.mapError_ok.mp checked
  · split at found
    · rename_i builtin
      cases found
      exact Strategy.builtin_checked builtin
    · cases found

namespace Setup

variable {setup : Setup} {path : List String} {ref : TypeRef} {name : String} {strategy : Strategy}

theorem plainEnum_checked (isEnum : setup.schema.classify name = .ok .enum)
    (gives : setup.plainEnum name = .ok strategy) : strategy.check = .ok () := by
  obtain ⟨type, found⟩ := Schema.enum_of_classify isEnum
  rw [plainEnum_eq found] at gives
  cases gives
  cases values : type.values <;> rfl

theorem ref_checked
    (objects : ∀ name strategy, setup.schema.classify name = .ok .object →
      setup.descent path (.named name) = .ok (some strategy) → strategy.check = .ok ())
    (gives : setup.descent path ref = .ok (some strategy)) : strategy.check = .ok () := by
  induction ref generalizing strategy with
  | nonNull inner ih => exact ih gives
  | list inner ih =>
    unfold descent plainRef at gives
    dsimp only at gives
    split at gives
    · obtain ⟨_, _, made⟩ := Outcome.bind_ok.mp gives
      cases made
      rfl
    · obtain ⟨element, within, made⟩ := Outcome.bind_ok.mp gives
      cases element with
      | none =>
        cases made
        rfl
      | some element =>
        cases made
        exact Strategy.listOf_checked _ (ih within)
  | named name =>
    obtain ⟨kind, classified⟩ := classify_of_descent gives
    have classified : setup.schema.classify name = .ok kind := classified
    have made := (descent_named classified).symm.trans gives
    cases kind with
    | enum =>
      obtain ⟨given, found, same⟩ := Outcome.map_ok.mp made
      cases same
      exact plainEnum_checked classified found
    | scalar =>
      obtain ⟨given, found, same⟩ := Outcome.map_ok.mp made
      cases same
      exact Scalars.strategy_checked found
    | object => exact objects name strategy classified gives
    | query => cases made

theorem object_checked {path : List String} {name : String} {strategy : Strategy}
    (isObject : setup.schema.classify name = .ok .object)
    (gives : setup.descent path (.named name) = .ok (some strategy)) : strategy.check = .ok () := by
  obtain ⟨type, found⟩ := Schema.object_of_classify isObject
  obtain ⟨opened, fields, rfl, record⟩ := descent_object found gives
  refine Strategy.record_checked.mpr fun field member => ?_
  obtain ⟨declared, _, gives⟩ := record.strategies field.1 field.2 member
  exact ref_checked (fun _ _ => object_checked) gives
termination_by setup.left path
decreasing_by exact left_enter_lt (Schema.object_ok.mpr found) opened

theorem plainRoot_checked (gives : setup.plainRoot ref = .ok strategy) : strategy.check = .ok () := by
  obtain ⟨given, descends, made⟩ := Outcome.bind_ok.mp gives
  obtain ⟨root, rfl⟩ := descent_nil descends
  cases made
  exact ref_checked (fun _ _ => object_checked) descends

theorem compile_queries_rooted {compiled : Compiled} (compiles : setup.compile = .ok compiled)
    (found : compiled.queries.get? name = some strategy) :
    ∃ ref, setup.plainRoot ref = .ok strategy := by
  let holds (queries : Keyed Strategy) : Prop := ∀ query given,
    queries.get? query = some given → ∃ ref, setup.plainRoot ref = .ok given
  obtain ⟨_, _, _, _, ranQueries, _⟩ := compile_ok compiles
  have all : holds compiled.queries := by
    refine Outcome.foldlM_keeps holds (fun queries entry _ next ran kept => ?_) ranQueries ?_
    · obtain ⟨made, root, rfl⟩ := plainQuery_ok.mp ran
      intro query given there
      rw [Keyed.get?_insert] at there
      split at there
      · cases there
        exact ⟨_, root⟩
      · exact kept query given there
    · intro query given there
      cases there
  exact all name strategy found

theorem type_checked {compiled : Compiled} (compiles : setup.compile = .ok compiled)
    (found : compiled.type name = .ok strategy) : strategy.check = .ok () :=
  plainRoot_checked (type_rooted compiles found)

theorem query_checked {compiled : Compiled} (compiles : setup.compile = .ok compiled)
    (found : compiled.query name = .ok strategy) : strategy.check = .ok () := by
  unfold Compiled.query at found
  split at found
  · rename_i known there
    cases found
    obtain ⟨ref, root⟩ := compile_queries_rooted compiles there
    exact plainRoot_checked root
  · cases found

end Setup

namespace Compiled

inductive HandsOut (compiled : Compiled) : Strategy → Prop where
  | type (found : compiled.type name = .ok strategy) : HandsOut compiled strategy
  | query (found : compiled.query name = .ok strategy) : HandsOut compiled strategy
  | ref (made : compiled.ref asked = .ok strategy) : HandsOut compiled strategy
  | project (made : compiled.project asked selections = .ok strategy) : HandsOut compiled strategy
  | operation (made : compiled.projectOperation selections = .ok strategy) :
      HandsOut compiled strategy
  | text (made : compiled.queryResult text bindings = .ok strategy) : HandsOut compiled strategy

variable {compiled : Compiled} {parent field : String} {ref : TypeRef} {strategy : Strategy}
  {refOf : String → Except GenerationError TypeRef}

def TypesChecked (compiled : Compiled) : Prop :=
  ∀ name strategy, compiled.type name = .ok strategy → strategy.check = .ok ()

theorem ref_checked (types : compiled.TypesChecked) (made : compiled.ref ref = .ok strategy) :
    strategy.check = .ok () := by
  induction ref generalizing strategy with
  | named name => exact types name strategy made
  | nonNull inner ih => exact ih made
  | list inner ih =>
    obtain ⟨element, within, made⟩ := Outcome.bind_ok.mp made
    cases made
    exact Strategy.listOf_checked _ (ih within)

theorem through_checked {object : String → Except GenerationError Strategy}
    (objects : ∀ type strategy, object type = .ok strategy → strategy.check = .ok ())
    (made : compiled.through object parent field ref = .ok strategy) : strategy.check = .ok () := by
  induction ref generalizing strategy with
  | named name =>
    obtain ⟨kind, _, made⟩ := Outcome.bind_ok.mp made
    cases kind with
    | object => exact objects name strategy made
    | enum => cases made
    | scalar => cases made
    | query => cases made
  | nonNull inner ih => exact ih made
  | list inner ih =>
    obtain ⟨element, within, made⟩ := Outcome.bind_ok.mp made
    cases made
    exact Strategy.listOf_checked _ (ih within)

theorem selectedObject_checked {selections : List Selection} {type : String}
    (members : ∀ {parent : String} {refOf : String → Except GenerationError TypeRef}
      {fields : List (String × Strategy)}, compiled.allSelected parent refOf selections = .ok fields →
        ∀ field ∈ fields, field.2.check = .ok ())
    (made : compiled.selectedObject selections type = .ok strategy) : strategy.check = .ok () := by
  obtain ⟨object, _, made⟩ := Outcome.bind_ok.mp made
  obtain ⟨fields, below, made⟩ := Outcome.bind_ok.mp made
  cases made
  exact Strategy.record_checked.mpr (members below)

mutual

theorem selected_checked (types : compiled.TypesChecked) : ∀ (selection : Selection)
    {parent : String} {refOf : String → Except GenerationError TypeRef}
    {field : String × Strategy},
    compiled.selected parent refOf selection = .ok field → field.2.check = .ok ()
  | ⟨name, label, none⟩, parent, refOf, field, made => by
    unfold selected at made
    split at made
    · cases made
      rfl
    · obtain ⟨ref, _, made⟩ := Outcome.bind_ok.mp made
      obtain ⟨strategy, whole, made⟩ := Outcome.bind_ok.mp made
      cases made
      exact ref_checked types whole
  | ⟨name, label, some selections⟩, parent, refOf, field, made => by
    by_cases special : name = typeNameField
    · unfold selected at made
      rw [if_pos special] at made
      cases made
    · rw [selected_nested special] at made
      obtain ⟨ref, _, made⟩ := Outcome.bind_ok.mp made
      obtain ⟨strategy, through, rfl⟩ := Outcome.map_ok.mp made
      exact through_checked
        (fun _ _ => selectedObject_checked (allSelected_checked types selections)) through

theorem allSelected_checked (types : compiled.TypesChecked) : ∀ (selections : List Selection)
    {parent : String} {refOf : String → Except GenerationError TypeRef}
    {fields : List (String × Strategy)},
    compiled.allSelected parent refOf selections = .ok fields →
      ∀ field ∈ fields, field.2.check = .ok ()
  | [], parent, refOf, fields, made => by
    cases made
    simp
  | selection :: rest, parent, refOf, fields, made => by
    obtain ⟨first, one, made⟩ := Outcome.bind_ok.mp made
    obtain ⟨others, later, made⟩ := Outcome.bind_ok.mp made
    cases made
    rw [List.forall_mem_cons]
    exact ⟨selected_checked types selection one, allSelected_checked types rest later⟩

end

theorem project_checked (types : compiled.TypesChecked) {query : String}
    {selections : List Selection} (made : compiled.project query selections = .ok strategy) :
    strategy.check = .ok () := by
  obtain ⟨ref, _, made⟩ := Outcome.bind_ok.mp made
  dsimp only at made
  split at made
  · exact Strategy.single_checked (fun _ => ref_checked types) made
  · refine Strategy.single_checked (fun _ => through_checked fun _ _ => ?_) made
    exact selectedObject_checked (allSelected_checked types selections)

theorem projectOperation_checked (types : compiled.TypesChecked) {operation : List Selection}
    (made : compiled.projectOperation operation = .ok strategy) : strategy.check = .ok () := by
  obtain ⟨fields, below, made⟩ := Outcome.bind_ok.mp made
  cases made
  exact Strategy.envelope_checked (allSelected_checked types operation below)

end Compiled

namespace Setup

variable {setup : Setup} {compiled : Compiled}

theorem handed_out_checked (compiles : setup.compile = .ok compiled) :
    ∀ strategy, compiled.HandsOut strategy →
      strategy.check = .ok () ∧ ∀ part, Strategy.Part part strategy → part.check = .ok () := by
  have types : compiled.TypesChecked := fun _ _ => type_checked compiles
  intro strategy handed
  have checked : strategy.check = .ok () := by
    cases handed with
    | type found => exact type_checked compiles found
    | query found => exact query_checked compiles found
    | ref made => exact Compiled.ref_checked types made
    | project made => exact Compiled.project_checked types made
    | operation made => exact Compiled.projectOperation_checked types made
    | text made =>
      obtain ⟨operation, _, made⟩ := Outcome.bind_ok.mp made
      exact Compiled.projectOperation_checked types made
  exact ⟨checked, fun part inside => inside.checked checked⟩

def ledger : Setup where
  schema := (((({} : Schema).withEnum "Mark" []).withScalar "Amount").withObject "entry"
      [("mark", .named "Mark"), ("amounts", .list (.named "Amount")),
        ("next", .named "entry")]).withQuery "entries" (.list (.named "entry"))
  scalars := ({} : Scalars).withOverride "Amount"
    (.list (.record [("units", .intRange 1 9), ("credit", .oneOf [.bool true])]) none)

def ledgerOperation : List Selection :=
  [⟨"entries", none, some [⟨"mark", none, none⟩, ⟨"amounts", some "sums", none⟩]⟩]

def ledgerResult : Strategy :=
  .envelope [("entries", .list (.record [("mark", .constant .null), ("sums",
    .list (.list (.record [("units", .intRange 1 9), ("credit", .oneOf [.bool true])]) none)
      none)]) none)]

theorem ledger_handed_out : ∃ compiled, ledger.compile = .ok compiled ∧
    compiled.projectOperation ledgerOperation = .ok ledgerResult ∧
    ledgerResult.check = .ok () ∧ (Strategy.intRange 1 9).check = .ok () := by
  obtain ⟨compiled, compiles, made⟩ : ∃ compiled, ledger.compile = .ok compiled ∧
      compiled.projectOperation ledgerOperation = .ok ledgerResult := ⟨_, rfl, rfl⟩
  obtain ⟨checked, parts⟩ := handed_out_checked compiles ledgerResult (.operation made)
  refine ⟨compiled, compiles, made, checked, parts _ ?_⟩
  exact .field (.head _) (.field (.head _) (.element (.field (.tail _ (.head _))
    (.element (.element (.field (.head _) .whole))))))

end Setup

end SchemaSampler
