import SchemaSampler.Schema.Reading
import SchemaSampler.Proofs.Json.ReadBack
import SchemaSampler.Proofs.WrittenRef

-- Blank names, repeated enum values and references that are too deep are not read back.

namespace SchemaSampler

open Document
open Json (Adds Plain ReadBack)

variable {depth : Nat}

namespace TypeRef

variable {ref : TypeRef}

def wrappers : TypeRef → Nat
  | named _ => 0
  | list inner => inner.wrappers + 1
  | nonNull inner => inner.wrappers + 1

def value : TypeRef → Value
  | named name => .text name
  | list inner => .seq [inner.value]
  | nonNull inner => .map [(.text "non_null", inner.value)]

theorem plain_toJson (shallow : ref.wrappers ≤ depth) : Plain depth ref.toJson := by
  induction ref generalizing depth with
  | named name => exact .str
  | list inner ih =>
    obtain ⟨depth, rfl⟩ := Nat.exists_eq_add_one_of_ne_zero (Nat.ne_zero_of_lt shallow)
    exact .arr (List.forall_mem_singleton.mpr (ih (Nat.le_of_succ_le_succ shallow)))
  | nonNull inner ih =>
    obtain ⟨depth, rfl⟩ := Nat.exists_eq_add_one_of_ne_zero (Nat.ne_zero_of_lt shallow)
    exact .obj (List.forall_mem_singleton.mpr (ih (Nat.le_of_succ_le_succ shallow)))

theorem value_toJson (ref : TypeRef) : ref.toJson.node.value false = pure ref.value := by
  induction ref with
  | named name => rfl
  | list inner ih =>
    rw [toJson, Json.node, Json.nodes, Json.nodes, Node.value, Node.values, ih]
    rfl
  | nonNull inner ih =>
    rw [toJson, Json.node, Json.memberNodes, Json.memberNodes, Node.value, Node.valuePairs, ih]
    rfl

theorem ofValue_value (ref : TypeRef) : WrittenRef.ofValue? ref.value = some ref.written := by
  induction ref with
  | named name => rfl
  | list inner ih =>
    rw [value, WrittenRef.ofValue?, WrittenRef.ofValues?, ih]
    rfl
  | nonNull inner ih =>
    simp [value, written, WrittenRef.ofValue?, WrittenRef.ofMembers?, WrittenRef.namesWrapper?, ih]

theorem readBack (named : Text.isAllBlank ref.base = false) (shallow : ref.wrappers ≤ depth) :
    ReadBack depth TypeRef.read ref.toJson ref := by
  refine ⟨plain_toJson shallow, ?_⟩
  rw [TypeRef.read, value_toJson, pure_bind, ofValue, ofValue_value]
  dsimp only
  rw [check_written named]
  rfl

end TypeRef

-- Each record is read back field by field, so that the drafts in between are written out.

theorem EnumType.readBack (type : EnumType) :
    ReadBack (depth + 2) EnumType.record.read type.toJson type := by
  have values : ReadBack (depth + 1) (Node.list Node.text) (.arr (type.values.map .str))
      type.values := .list fun content _ => .text content
  have adds : Adds EnumType.record (depth + 1) ["values", "description"]
      (("values", .arr (type.values.map .str)) :: describe type.description)
      {} ⟨some type.values, type.description⟩ :=
    .member (values.map fun values => (⟨some values, none⟩ : EnumType.Draft)) <|
    .described (fun description => (⟨some type.values, description⟩ : EnumType.Draft)) fun _ => rfl
  exact .record (by decide) adds rfl

theorem FieldDef.readBack {field : FieldDef}
    (reference : ReadBack depth TypeRef.read field.ref.toJson field.ref) :
    ReadBack (depth + 1) FieldDef.record.read field.toJson field := by
  have adds : Adds FieldDef.record depth ["type", "description"]
      (("type", field.ref.toJson) :: describe field.description)
      {} ⟨some field.ref, field.description⟩ :=
    .member (reference.map fun ref => (⟨some ref, none⟩ : FieldDef.Draft)) <|
    .described (fun description => (⟨some field.ref, description⟩ : FieldDef.Draft)) fun _ => rfl
  exact .record (by decide) adds rfl

theorem ObjectType.readBack {type : ObjectType} (each : ∀ field ∈ type.fields.values,
      ReadBack depth FieldDef.record.read field.toJson field) :
    ReadBack (depth + 2) ObjectType.record.read type.toJson type := by
  have adds : Adds ObjectType.record (depth + 1) ["fields", "description"]
      (("fields", type.fields.toJson FieldDef.toJson) :: describe type.description) {} type :=
    .member ((ReadBack.keyed each).map fun fields => (⟨fields, none⟩ : ObjectType)) <|
    .described (fun description => (⟨type.fields, description⟩ : ObjectType)) fun _ => rfl
  exact .record (by decide) adds rfl

theorem ScalarType.readBack (type : ScalarType) :
    ReadBack (depth + 1) ScalarType.record.read type.toJson type := by
  have adds : Adds ScalarType.record depth ["parse", "serialize", "description"]
      (Json.optionalMember "parse" (type.parse.map .str) ++
        (Json.optionalMember "serialize" (type.serialize.map .str) ++ describe type.description))
      {} type :=
    .optionalText (fun parse => (⟨parse, none, none⟩ : ScalarType)) (fun _ => rfl) <|
    .optionalText (fun serialize => (⟨type.parse, serialize, none⟩ : ScalarType))
      (fun _ => rfl) <|
    .described (fun description => (⟨type.parse, type.serialize, description⟩ : ScalarType))
      fun _ => rfl
  rw [toJson, List.append_assoc]
  exact .record (by decide) adds rfl

theorem QueryDef.readBack {query : QueryDef}
    (result : ReadBack (depth + 1) TypeRef.read query.ref.toJson query.ref)
    (each : ∀ field ∈ query.args.values, ReadBack depth FieldDef.record.read field.toJson field) :
    ReadBack (depth + 2) QueryDef.record.read query.toJson query := by
  let final : QueryDef.Draft := ⟨some query.ref, query.resolve, query.args, query.description⟩
  have described : Adds QueryDef.record (depth + 1) ["description"] (describe query.description)
      ⟨some query.ref, query.resolve, query.args, none⟩ final :=
    .described (fun description =>
      (⟨some query.ref, query.resolve, query.args, description⟩ : QueryDef.Draft)) fun _ => rfl
  have args : Adds QueryDef.record (depth + 1) ["args", "description"]
      ((if query.args.isEmpty then [] else [("args", query.args.toJson FieldDef.toJson)]) ++
        describe query.description)
      ⟨some query.ref, query.resolve, ∅, none⟩ final := by
    cases empty : query.args.isEmpty with
    | true =>
      have nothing : query.args = ∅ := Keyed.ext_entries (List.isEmpty_iff.mp empty)
      rw [nothing] at described
      exact .absent described
    | false =>
      exact .member ((ReadBack.keyed each).map fun args =>
        (⟨some query.ref, query.resolve, args, none⟩ : QueryDef.Draft)) described
  have adds : Adds QueryDef.record (depth + 1) ["type", "resolve", "args", "description"]
      (("type", query.ref.toJson) :: (Json.optionalMember "resolve" (query.resolve.map .str) ++
        ((if query.args.isEmpty then [] else [("args", query.args.toJson FieldDef.toJson)]) ++
          describe query.description)))
      {} final :=
    .member (result.map fun ref => (⟨some ref, none, ∅, none⟩ : QueryDef.Draft)) <|
    .optionalText (fun resolve => (⟨some query.ref, resolve, ∅, none⟩ : QueryDef.Draft))
      (fun _ => rfl) args
  rw [toJson, List.append_assoc]
  exact .record (by decide) adds rfl

namespace Schema

variable {schema : Schema}

def allRefs (schema : Schema) : List TypeRef :=
  schema.objects.values.flatMap (fun type => type.fields.values.map FieldDef.ref) ++
    schema.queries.values.flatMap fun query => query.ref :: query.args.values.map FieldDef.ref

theorem object_ref {type : ObjectType} (isType : type ∈ schema.objects.values) {field : FieldDef}
    (isField : field ∈ type.fields.values) : field.ref ∈ schema.allRefs :=
  List.mem_append_left _ (List.mem_flatMap.mpr ⟨type, isType, List.mem_map_of_mem isField⟩)

theorem query_ref {query : QueryDef} (isQuery : query ∈ schema.queries.values) :
    query.ref ∈ schema.allRefs :=
  List.mem_append_right _ (List.mem_flatMap.mpr ⟨query, isQuery, List.mem_cons_self⟩)

theorem arg_ref {query : QueryDef} (isQuery : query ∈ schema.queries.values) {field : FieldDef}
    (isArg : field ∈ query.args.values) : field.ref ∈ schema.allRefs :=
  List.mem_append_right _ (List.mem_flatMap.mpr
    ⟨query, isQuery, List.mem_cons_of_mem _ (List.mem_map_of_mem isArg)⟩)

theorem readBack (named : ∀ ref ∈ schema.allRefs, Text.isAllBlank ref.base = false)
    (shallow : ∀ ref ∈ schema.allRefs, ref.wrappers ≤ depth) :
    ReadBack (depth + 5) Schema.record.read schema.toJson schema := by
  have reference : ∀ {room : Nat} {ref : TypeRef}, depth ≤ room → ref ∈ schema.allRefs →
      ReadBack room TypeRef.read ref.toJson ref :=
    fun more inside => TypeRef.readBack (named _ inside) (Nat.le_trans (shallow _ inside) more)
  have enums : ∀ type ∈ schema.enums.values,
      ReadBack (depth + 3) EnumType.record.read type.toJson type :=
    fun type _ => type.readBack
  have objects : ∀ type ∈ schema.objects.values,
      ReadBack (depth + 3) ObjectType.record.read type.toJson type := by
    intro type isType
    apply ObjectType.readBack
    intro field isField
    exact FieldDef.readBack (reference (Nat.le_refl _) (object_ref isType isField))
  have scalars : ∀ type ∈ schema.scalars.values,
      ReadBack (depth + 3) ScalarType.record.read type.toJson type :=
    fun type _ => type.readBack
  have queries : ∀ query ∈ schema.queries.values,
      ReadBack (depth + 3) QueryDef.record.read query.toJson query := by
    intro query isQuery
    apply QueryDef.readBack (reference (Nat.le_add_right depth 2) (query_ref isQuery))
    intro field isArg
    exact FieldDef.readBack (reference (Nat.le_refl _) (arg_ref isQuery isArg))
  have adds : Adds Schema.record (depth + 4) ["enums", "objects", "scalars", "queries"]
      [("enums", schema.enums.toJson EnumType.toJson),
        ("objects", schema.objects.toJson ObjectType.toJson),
        ("scalars", schema.scalars.toJson ScalarType.toJson),
        ("queries", schema.queries.toJson QueryDef.toJson)] {} schema :=
    .member ((ReadBack.keyed enums).map fun enums => (⟨enums, ∅, ∅, ∅⟩ : Schema)) <|
    .member ((ReadBack.keyed objects).map fun objects =>
      (⟨schema.enums, objects, ∅, ∅⟩ : Schema)) <|
    .member ((ReadBack.keyed scalars).map fun scalars =>
      (⟨schema.enums, schema.objects, scalars, ∅⟩ : Schema)) <|
    .member ((ReadBack.keyed queries).map fun queries =>
      (⟨schema.enums, schema.objects, schema.scalars, queries⟩ : Schema)) .nothing
  exact .record (by decide) adds rfl

theorem firstRepeated_eq_none_iff {values seen : List String} :
    firstRepeated? values seen = none ↔ values.Nodup ∧ ∀ value ∈ values, value ∉ seen := by
  induction values generalizing seen with
  | nil => simp [firstRepeated?]
  | cons value rest ih =>
    rw [firstRepeated?, List.nodup_cons, List.forall_mem_cons]
    by_cases before : value ∈ seen
    · simp [before]
    · rw [if_neg (mt List.contains_iff_mem.mp before), ih]
      constructor
      · rintro ⟨distinct, fresh⟩
        have once : value ∉ rest := fun again => fresh value again List.mem_cons_self
        exact ⟨⟨once, distinct⟩, before,
          fun other inside => mt (List.mem_cons_of_mem value) (fresh other inside)⟩
      · rintro ⟨⟨once, distinct⟩, _, fresh⟩
        refine ⟨distinct, fun other inside => ?_⟩
        have apart : other ≠ value := fun same => once (same ▸ inside)
        exact List.not_mem_cons_of_ne_of_not_mem apart (fresh other inside)

theorem repeatedEnumValue_eq_none_iff :
    schema.repeatedEnumValue? = none ↔ ∀ type ∈ schema.enums.values, type.values.Nodup := by
  rw [repeatedEnumValue?, List.findSome?_eq_none_iff, Keyed.values, List.forall_mem_map]
  simp [firstRepeated_eq_none_iff]

theorem ofJson_text (named : ∀ ref ∈ schema.allRefs, Text.isAllBlank ref.base = false)
    (shallow : ∀ ref ∈ schema.allRefs, ref.wrappers ≤ 64)
    (distinct : ∀ type ∈ schema.enums.values, type.values.Nodup) :
    ofJson schema.toJson.text = .ok schema := by
  -- the groups, their members, the arguments and a field of them are five levels
  have room : ∀ ref ∈ schema.allRefs, ref.wrappers ≤ 122 :=
    fun ref inside => Nat.le_trans (shallow ref inside) (by decide)
  have back : ReadBack Json.nestingLimit Schema.record.read schema.toJson schema :=
    readBack named room
  rw [ofJson, back.document]
  change checkEnums schema = .ok schema
  rw [checkEnums, repeatedEnumValue_eq_none_iff.mpr distinct]

-- Shelves of an archive, with signs, breaks and letters that JSON text escapes or keeps.
def archive : Schema where
  enums := .ofList [("shelf \"A\"", ⟨["up\\down", "tab\there", "\x01\x7f"], some "line\nbreak"⟩)]
  objects := .ofList
    [("book",
      { fields := .ofList
          [("title", ⟨.nonNull (.named "String"), some "été \u2028 ∀"⟩),
            ("shelves", ⟨.list (.nonNull (.list (.named "shelf \"A\""))), none⟩)] }),
      ("", { description := some "" })]
  scalars := .ofList [("Day", ⟨some "host::day", none, none⟩), ("Hour", {})]
  queries := .ofList
    [("find",
      { ref := .list (.named "book"), resolve := some "find_book",
        args := .ofList [("title", ⟨.named "String", none⟩), ("day", ⟨.named "Day", some "/"⟩)] }),
      ("all", { ref := .list (.named "book") })]

theorem archive_ofJson_text :
    (∀ ref ∈ archive.allRefs, Text.isAllBlank ref.base = false) ∧
      (∀ ref ∈ archive.allRefs, ref.wrappers ≤ 64) ∧
      (∀ type ∈ archive.enums.values, type.values.Nodup) ∧
      ofJson archive.toJson.text = .ok archive := by
  have named : ∀ ref ∈ archive.allRefs, Text.isAllBlank ref.base = false := by decide
  have shallow : ∀ ref ∈ archive.allRefs, ref.wrappers ≤ 64 := by decide
  have distinct : ∀ type ∈ archive.enums.values, type.values.Nodup := by decide
  exact ⟨named, shallow, distinct, ofJson_text named shallow distinct⟩

end Schema

end SchemaSampler
