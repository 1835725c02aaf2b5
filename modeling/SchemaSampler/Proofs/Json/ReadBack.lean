import SchemaSampler.Schema.Writing
import SchemaSampler.Proofs.Keyed
import SchemaSampler.Proofs.Json.Spelling

namespace SchemaSampler.Json

open Document

variable {α β : Type} {depth : Nat}

structure ReadBack (depth : Nat) (read : Node Leaf → Reading α) (value : Json) (found : α) :
    Prop where
  plain : Plain depth value
  reads : read value.node = pure found

namespace ReadBack

variable {read : Node Leaf → Reading α} {write : α → Json} {value : Json} {found : α}

theorem document (back : ReadBack nestingLimit read value found) :
    (document value.text).read read = .ok found := by
  rw [document_text back.plain, Text.read, back.reads]
  rfl

theorem text (content : String) : ReadBack depth Node.text (.str content) content := ⟨.str, rfl⟩

theorem map (f : α → β) (back : ReadBack depth read value found) :
    ReadBack depth (fun node => do return f (← read node)) value (f found) := by
  refine ⟨back.plain, ?_⟩
  rw [back.reads, pure_bind]

theorem present (back : ReadBack depth read value found) (given : value ≠ .null) :
    ReadBack depth (Node.optional read) value (some found) := by
  refine ⟨back.plain, ?_⟩
  have goes : Node.optional read value.node = some <$> read value.node := by
    cases value with
    | null => exact absurd rfl given
    | bool | num | str | arr | obj => rfl
  rw [goes, back.reads, map_pure]

theorem list {items : List α} (each : ∀ item ∈ items, ReadBack depth read (write item) item) :
    ReadBack (depth + 1) (Node.list read) (.arr (items.map write)) items := by
  refine ⟨.arr ?_, ?_⟩
  · intro written inside
    obtain ⟨item, member, rfl⟩ := List.mem_map.mp inside
    exact (each item member).plain
  · have goes : (nodes (items.map write)).mapM read = pure items := by
      induction items with
      | nil => rfl
      | cons item rest ih =>
        rw [List.forall_mem_cons] at each
        rw [List.map_cons, nodes, List.mapM_cons, each.1.reads, ih each.2, pure_bind, pure_bind]
    exact goes

theorem members_inserted {entries : List (String × α)}
    (each : ∀ entry ∈ entries, ReadBack depth read (write entry.2) entry.2) (made : Keyed α) :
    (memberNodes (entries.map fun entry => (entry.1, write entry.2))).foldlM
        (fun found member => do
          let name ← member.1.text
          return found.insert name (← read member.2)) made =
      pure (entries.foldl (fun found entry => found.insert entry.1 entry.2) made) := by
  induction entries generalizing made with
  | nil => rfl
  | cons entry rest ih =>
    rw [List.forall_mem_cons] at each
    have name : Node.text (.leaf (.str (some entry.1)) : Node Leaf) = pure entry.1 := rfl
    rw [List.map_cons, memberNodes, List.foldlM_cons, name, pure_bind, each.1.reads, pure_bind,
      pure_bind, ih each.2, List.foldl_cons]

theorem keyed {map : Keyed α} (each : ∀ item ∈ map.values, ReadBack depth read (write item) item) :
    ReadBack (depth + 1) (Node.keyed read) (map.toJson write) map := by
  have back : ∀ entry ∈ map.entries, ReadBack depth read (write entry.2) entry.2 :=
    fun entry member => each entry.2 (List.mem_map_of_mem member)
  refine ⟨.obj ?_, ?_⟩
  · intro written inside
    obtain ⟨entry, member, rfl⟩ := List.mem_map.mp inside
    exact (back entry member).plain
  · calc Node.keyed read (map.toJson write).node
      _ = pure (Keyed.ofList map.entries) := members_inserted back ∅
      _ = pure map := by rw [Keyed.ofList_entries]

end ReadBack

-- The members come in the order of the fields, any of which may be without a member.
inductive Adds (record : Record Leaf α β) (depth : Nat) :
    List String → List (String × Json) → α → α → Prop where
  | nothing : Adds record depth [] [] draft draft
  | member (step : ReadBack depth (record.step name · draft) value next)
      (rest : Adds record depth fields members next made) :
      Adds record depth (name :: fields) ((name, value) :: members) draft made
  | absent (rest : Adds record depth fields members draft made) :
      Adds record depth (name :: fields) members draft made

namespace Adds

variable {record : Record Leaf α β} {fields : List String} {members : List (String × Json)}
  {draft made : α}

theorem plain (adds : Adds record depth fields members draft made) :
    ∀ member ∈ members, Plain depth member.2 := by
  induction adds with
  | nothing => nofun
  | member step _ ih => exact List.forall_mem_cons.mpr ⟨step.plain, ih⟩
  | absent _ ih => exact ih

theorem members_read (adds : Adds record depth fields members draft made)
    (distinct : fields.Nodup) (known : fields ⊆ record.fields) (seen : List String)
    (fresh : ∀ name ∈ fields, name ∉ seen) :
    record.members (memberNodes members) seen draft = pure made := by
  induction adds generalizing seen with
  | nothing => rfl
  | @member name draft value next fields members made step rest ih =>
    rw [List.nodup_cons] at distinct
    rw [List.cons_subset] at known
    rw [List.forall_mem_cons] at fresh
    have text : Node.text (.leaf (.str (some name)) : Node Leaf) = pure name := rfl
    have later : ∀ other ∈ fields, other ∉ name :: seen := by
      intro other inside
      rw [List.mem_cons, not_or]
      exact ⟨fun same => distinct.1 (same ▸ inside), fresh.2 other inside⟩
    rw [memberNodes, Record.members, text, pure_bind, if_pos (List.contains_iff_mem.mpr known.1),
      if_neg (mt List.contains_iff_mem.mp fresh.1), step.reads, pure_bind]
    exact ih distinct.2 known.2 (name :: seen) later
  | absent rest ih =>
    exact ih (List.nodup_cons.mp distinct).2 (List.cons_subset.mp known).2 seen
      (List.forall_mem_cons.mp fresh).2

theorem optionalText (set : Option String → α) {content : Option String}
    (step : ∀ node, record.step name node (set none) = do return set (← node.optional Node.text))
    (rest : Adds record depth fields members (set content) made) :
    Adds record depth (name :: fields) (optionalMember name (content.map .str) ++ members)
      (set none) made := by
  cases content with
  | none => exact .absent rest
  | some content =>
    refine .member ?_ rest
    rw [funext step]
    exact ((ReadBack.text content).present nofun).map set

theorem described (set : Option String → α) {description : Option String}
    (step : ∀ node, record.step "description" node (set none) =
      do return set (← node.optional Node.text)) :
    Adds record depth ["description"] (describe description) (set none) (set description) := by
  have last : Adds record depth [] [] (set description) (set description) := .nothing
  have described := optionalText set step last
  rwa [List.append_nil] at described

end Adds

theorem ReadBack.record {record : Record Leaf α β} {members : List (String × Json)} {made : α}
    {found : β} (distinct : record.fields.Nodup)
    (adds : Adds record depth record.fields members record.start made)
    (finishes : record.finish made = .ok found) :
    ReadBack (depth + 1) record.read (.obj members) found := by
  refine ⟨.obj adds.plain, ?_⟩
  have added := adds.members_read distinct (List.Subset.refl _) [] nofun
  have goes : record.read (Json.obj members).node =
      (do record.complete (← record.members (memberNodes members) [] record.start)) := rfl
  rw [goes, added, pure_bind, Record.complete, finishes]
  rfl

end SchemaSampler.Json
