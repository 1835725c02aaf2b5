import SchemaSampler.Projection
import SchemaSampler.Proofs.Json.ReadBack

-- What is absent is left out of the text and what is empty is not, so that a selection without a
-- nested selection and one with an empty one stay apart.

namespace SchemaSampler.Selection

open Document
open Json (Adds ReadBack)

mutual

def nestings : Selection → Nat
  | ⟨_, _, none⟩ => 0
  | ⟨_, _, some selections⟩ => setNestings selections + 1

def setNestings : List Selection → Nat
  | [] => 0
  | selection :: rest => max selection.nestings (setNestings rest)

end

variable {selections : List Selection} {depth : Nat}

theorem setToJson_eq_map (selections : List Selection) :
    setToJson selections = selections.map toJson := by
  induction selections with
  | nil => rfl
  | cons selection rest ih => rw [setToJson, ih, List.map_cons]

theorem readBack_record {readNested : Node Json.Leaf → Reading (List Selection)} {name : String}
    {label : Option String} {nested : Option (List Selection)} {members : List (String × Json)}
    (last : Adds (record readNested) depth ["selection_set"] members
      ⟨some name, label, none⟩ ⟨some name, label, nested⟩) :
    ReadBack (depth + 1) (record readNested).read
      (.obj (("name", .str name) :: (Json.optionalMember "alias" (label.map .str) ++ members)))
      ⟨name, label, nested⟩ := by
  have adds : Adds (record readNested) depth ["name", "alias", "selection_set"]
      (("name", .str name) :: (Json.optionalMember "alias" (label.map .str) ++ members))
      {} ⟨some name, label, nested⟩ :=
    .member ((ReadBack.text name).map fun name => (⟨some name, none, none⟩ : Draft)) <|
    .optionalText (fun label => (⟨some name, label, none⟩ : Draft)) (fun _ => rfl) last
  have distinct : ["name", "alias", "selection_set"].Nodup := by decide
  exact .record distinct adds rfl

mutual

-- A selection takes one level of the document, and each nested selection two more.
theorem readBack : ∀ (selection : Selection) {depth levels : Nat},
    selection.nestings < levels → 2 * selection.nestings < depth →
      ReadBack depth (read levels) selection.toJson selection
  | ⟨name, label, none⟩, depth + 1, levels + 1, _, _ => by
    have absent : Adds (record (Node.list (read levels))) depth ["selection_set"] []
        ⟨some name, label, none⟩ ⟨some name, label, none⟩ := .absent .nothing
    rw [toJson]
    exact readBack_record absent
  | ⟨name, label, some selections⟩, depth + 1, levels + 1, enough, shallow => by
    rw [nestings] at enough shallow
    obtain ⟨depth, rfl⟩ : ∃ inner, depth = inner + 1 := ⟨depth - 1, by omega⟩
    have each : ∀ selection ∈ selections,
        ReadBack depth (read levels) selection.toJson selection :=
      readBack_each selections (by omega) (by omega)
    have nested : ReadBack (depth + 1) (Node.list (read levels)) (.arr (setToJson selections))
        selections := by
      rw [setToJson_eq_map]
      exact .list each
    have present : Adds (record (Node.list (read levels))) (depth + 1) ["selection_set"]
        [("selection_set", .arr (setToJson selections))]
        ⟨some name, label, none⟩ ⟨some name, label, some selections⟩ :=
      .member ((nested.present nofun).map fun nested => (⟨some name, label, nested⟩ : Draft))
        .nothing
    rw [toJson]
    exact readBack_record present

theorem readBack_each : ∀ (selections : List Selection) {depth levels : Nat},
    setNestings selections < levels → 2 * setNestings selections < depth →
      ∀ selection ∈ selections, ReadBack depth (read levels) selection.toJson selection
  | [], _, _, _, _ => nofun
  | selection :: rest, depth, levels, enough, shallow => by
    rw [setNestings] at enough shallow
    refine List.forall_mem_cons.mpr ⟨readBack selection (by omega) (by omega), ?_⟩
    exact readBack_each rest (by omega) (by omega)

end

def written (selections : List Selection) : String := (Json.arr (setToJson selections)).text

def ofWritten (text : String) : Read (List Selection) := (Json.document text).read readSet

-- Forty levels of nested selections take up to eighty-two levels of the document.
theorem ofWritten_written (shallow : setNestings selections ≤ 40) :
    ofWritten (written selections) = .ok selections := by
  have each : ∀ selection ∈ selections, ReadBack 126 (read levels) selection.toJson selection :=
    readBack_each selections (Nat.lt_of_le_of_lt shallow (by decide)) (by omega)
  have back : ReadBack Json.nestingLimit readSet (.arr (setToJson selections)) selections := by
    rw [setToJson_eq_map]
    exact .list each
  exact back.document

-- Selections that differ at whatever level are written differently.
theorem written_readBack (shallow : setNestings selections ≤ 40) :
    ofWritten (written selections) = .ok selections ∧
    (∀ others, setNestings others ≤ 40 → written others = written selections →
      others = selections) ∧
    ∀ decoded, ofWritten (written selections) = .ok decoded →
      ∀ compiled : Compiled,
        compiled.projectOperation decoded = compiled.projectOperation selections := by
  have back := ofWritten_written shallow
  refine ⟨back, fun others shallowToo same => ?_, fun decoded reads compiled => ?_⟩
  · have backToo := ofWritten_written shallowToo
    rw [same, back] at backToo
    exact (Except.ok.inj backToo).symm
  · rw [back] at reads
    rw [Except.ok.inj reads]

-- Names and labels with letters that are escaped, and all the ways to nest nothing.
def journey : List Selection :=
  [⟨"legs", some "\"first\"\n", some [⟨"stop", none, none⟩, ⟨"stop", some "", some []⟩,
    ⟨"next\\leg", some "été \x01", some [⟨"stop", none, some []⟩]⟩]⟩, ⟨"", none, none⟩]

theorem journey_readBack : setNestings journey ≤ 40 ∧
    ofWritten (written journey) = .ok journey := by
  have shallow : setNestings journey ≤ 40 := by decide
  exact ⟨shallow, (written_readBack shallow).1⟩

end SchemaSampler.Selection
