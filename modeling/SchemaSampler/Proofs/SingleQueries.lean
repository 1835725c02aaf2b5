import SchemaSampler.Proofs.Wrapping
import SchemaSampler.Proofs.Acceptance

namespace SchemaSampler

namespace Compiled

variable {compiled : Compiled} {query : String} {selections : List Selection}

def resultAs (query : String) (strategy : Strategy) : Strategy := .envelope [(query, strategy)]

theorem project_eq (compiled : Compiled) (query : String) (selections : List Selection) :
    compiled.project query selections = compiled.queryRef query >>= fun ref => resultAs query <$>
      if selections.isEmpty then compiled.ref ref
      else compiled.through (compiled.selectedObject selections) rootType query ref := by
  unfold project
  apply bind_congr
  intro ref
  split
  · exact (map_eq_pure_bind (resultAs query) _).symm
  · exact (map_eq_pure_bind (resultAs query) _).symm

theorem projectOperation_single (compiled : Compiled) (selection : Selection) :
    compiled.projectOperation [selection] =
      (fun member => .envelope [member]) <$> compiled.selected rootType compiled.queryRef selection := by
  unfold projectOperation allSelected
  cases compiled.selected rootType compiled.queryRef selection <;> rfl

theorem operation_whole (other : query ≠ typeNameField) :
    compiled.projectOperation [⟨query, none, none⟩] =
      compiled.queryRef query >>= fun ref => resultAs query <$> compiled.ref ref := by
  rw [projectOperation_single, selected_whole other, map_bind]
  refine bind_congr fun ref => ?_
  exact Functor.map_map _ _ _

theorem operation_nested (other : query ≠ typeNameField) :
    compiled.projectOperation [⟨query, none, some selections⟩] =
      compiled.queryRef query >>= fun ref => resultAs query <$>
        compiled.through (compiled.selectedObject selections) rootType query ref := by
  rw [projectOperation_single, selected_nested other, map_bind]
  refine bind_congr fun ref => ?_
  exact Functor.map_map _ _ _

end Compiled

namespace Setup

variable {setup : Setup} {compiled : Compiled} {query : String} {asked : QueryDef}

-- Nothing selected of an object is the empty object, and of anything else it is an error.
theorem operation_nothing (compiles : setup.compile = .ok compiled)
    (other : query ≠ typeNameField) (isQuery : setup.schema.queries.get? query = some asked) :
    compiled.projectOperation [⟨query, none, some []⟩] =
      if setup.schema.objects.contains asked.ref.base then
        .ok (.envelope [(query, setup.policy.wrap asked.ref (.record []))])
      else .error (.selectionOnLeaf rootType query) := by
  obtain ⟨kind, classified⟩ := classify_of_refers compiles (.query isQuery)
  have sameKind := Schema.contains_object_iff classified
  have sameSchema := compile_schema compiles
  rw [Compiled.operation_nested other, queryRef_of_declared compiles isQuery, Outcome.ok_bind]
  by_cases isObject : setup.schema.objects.contains asked.ref.base = true
  · obtain ⟨object, found⟩ := Option.isSome_iff_exists.mp isObject
    rw [← sameSchema] at classified found
    rw [if_pos isObject, Compiled.through_object (sameKind.mp isObject ▸ classified),
      Compiled.selectedObject_ok found rfl,
      compile_policy compiles]
    rfl
  · rw [← sameSchema] at classified
    rw [if_neg isObject, Compiled.through_leaf classified (mt sameKind.mpr isObject)]
    rfl

-- An empty selection is taken for none, which an operation tells apart.
theorem project_eq_operation (compiles : setup.compile = .ok compiled)
    (other : query ≠ typeNameField) (selections : List Selection) :
    (selections ≠ [] → compiled.project query selections =
      compiled.projectOperation [⟨query, none, some selections⟩]) ∧
    compiled.project query [] = compiled.projectOperation [⟨query, none, none⟩] ∧
    ∀ asked, setup.schema.queries.get? query = some asked →
      compiled.projectOperation [⟨query, none, some []⟩] =
        if setup.schema.objects.contains asked.ref.base then
          .ok (.envelope [(query, setup.policy.wrap asked.ref (.record []))])
        else .error (.selectionOnLeaf rootType query) := by
  refine ⟨fun any => ?_, ?_, fun asked isQuery => operation_nothing compiles other isQuery⟩
  · rw [compiled.project_eq, Compiled.operation_nested other,
      List.isEmpty_eq_false_iff.mpr any]
    rfl
  · rw [compiled.project_eq, Compiled.operation_whole other]
    rfl

def gallery : Setup where
  schema := ((({} : Schema).withObject "room"
      [("label", .named "String"), ("doors", .list (.nonNull (.named "room")))]).withQuery "rooms"
      (.nonNull (.list (.list (.named "room"))))).withQuery "visitors" (.named "Int")
  policy := ({} : Policy).withWidth "room" 3

def gallerySelection : List Selection :=
  [⟨"doors", some "exits", some [⟨"__typename", none, none⟩]⟩, ⟨"label", none, none⟩,
    ⟨"doors", none, some []⟩]

theorem gallery_project_operation : ∃ compiled strategy, gallery.compile = .ok compiled ∧
    compiled.project "rooms" gallerySelection = .ok strategy ∧
    compiled.projectOperation [⟨"rooms", none, some gallerySelection⟩] = .ok strategy := by
  have compiles : gallery.compile = .ok _ := rfl
  have other : "rooms" ≠ typeNameField := by decide
  have any : gallerySelection ≠ [] := List.cons_ne_nil _ _
  have same := (project_eq_operation compiles other gallerySelection).1 any
  exact ⟨_, _, rfl, rfl, same.symm⟩

-- The whole rooms, and rooms with nothing in them; a number of visitors, and an error.
theorem gallery_nothing_selected : ∃ compiled, gallery.compile = .ok compiled ∧
    compiled.project "rooms" [] ≠ compiled.projectOperation [⟨"rooms", none, some []⟩] ∧
    compiled.project "visitors" [] ≠ compiled.projectOperation [⟨"visitors", none, some []⟩] := by
  refine ⟨_, rfl, ?_, ?_⟩
  · intro same
    cases same
  · intro same
    cases same

end Setup

end SchemaSampler
