import SchemaSampler.TypeRef

namespace SchemaSampler

namespace WrittenRef

inductive Part : WrittenRef → WrittenRef → Prop where
  | whole : Part written written
  | item (member : item ∈ items) (inside : Part part item) : Part part (.list items)
  | wrapped (inside : Part part content) : Part part (.nonNull content)

def Single (written : WrittenRef) : Prop := ∀ items, Part (.list items) written → items.length = 1

-- The list that does not hold one item, and that all such lists are parts of.
structure Outermost (written : WrittenRef) (items : List WrittenRef) : Prop where
  isPart : Part (.list items) written
  unfit : items.length ≠ 1
  around : ∀ others, Part (.list others) written → others.length ≠ 1 →
    Part (.list others) (.list items)

variable {written inner part : WrittenRef} {items : List WrittenRef} {name : String}

namespace Part

theorem named_iff : Part part (.named name) ↔ part = .named name := by
  constructor
  · rintro ⟨⟩
    rfl
  · rintro rfl
    exact .whole

theorem single_iff : Part part (.list [inner]) ↔ part = .list [inner] ∨ Part part inner := by
  constructor
  · rintro (_ | ⟨member, inside⟩)
    · exact .inl rfl
    · exact .inr (List.mem_singleton.mp member ▸ inside)
  · rintro (rfl | inside)
    · exact .whole
    · exact .item List.mem_cons_self inside

theorem nonNull_iff : Part part (.nonNull inner) ↔ part = .nonNull inner ∨ Part part inner := by
  constructor
  · rintro (_ | _ | inside)
    · exact .inl rfl
    · exact .inr inside
  · rintro (rfl | inside)
    · exact .whole
    · exact .wrapped inside

theorem smaller (isPart : Part part written) : part = written ∨ sizeOf part < sizeOf written := by
  induction isPart with
  | whole => exact .inl rfl
  | @item item items part member inside ih =>
    have below := List.sizeOf_lt_of_mem member
    refine .inr ?_
    simp only [list.sizeOf_spec]
    rcases ih with rfl | less <;> omega
  | wrapped inside ih =>
    refine .inr ?_
    simp only [nonNull.sizeOf_spec]
    rcases ih with rfl | less <;> omega

theorem antisymm {first second : WrittenRef} (one : Part first second)
    (other : Part second first) : first = second := by
  rcases one.smaller with same | less
  · exact same
  · rcases other.smaller with same | more
    · exact same.symm
    · omega

end Part

theorem Outermost.unique {others : List WrittenRef} (one : Outermost written items)
    (other : Outermost written others) : items = others := by
  have within := other.around items one.isPart one.unfit
  have around := one.around others other.isPart other.unfit
  exact list.inj (within.antisymm around)

theorem Outermost.single (outer : Outermost inner items) : Outermost (.list [inner]) items where
  isPart := Part.single_iff.mpr (.inr outer.isPart)
  unfit := outer.unfit
  around others isPart unfit := by
    rcases Part.single_iff.mp isPart with same | inside
    · exact absurd (congrArg List.length (list.inj same)) unfit
    · exact outer.around others inside unfit

theorem Outermost.nonNull (outer : Outermost inner items) : Outermost (.nonNull inner) items where
  isPart := .wrapped outer.isPart
  unfit := outer.unfit
  around others isPart unfit := by
    rcases Part.nonNull_iff.mp isPart with same | inside
    · cases same
    · exact outer.around others inside unfit

end WrittenRef

namespace TypeRef

variable {ref : TypeRef} {name : String}

theorem single_written (ref : TypeRef) : ref.written.Single := by
  induction ref with
  | named name =>
    intro items isPart
    cases WrittenRef.Part.named_iff.mp isPart
  | list inner ih =>
    intro items isPart
    rcases WrittenRef.Part.single_iff.mp isPart with same | inside
    · exact congrArg List.length (WrittenRef.list.inj same)
    · exact ih items inside
  | nonNull inner ih =>
    intro items isPart
    rcases WrittenRef.Part.nonNull_iff.mp isPart with same | inside
    · cases same
    · exact ih items inside

theorem name_written : WrittenRef.Part (.named name) ref.written ↔ name = ref.base := by
  induction ref with
  | named known => rw [written, WrittenRef.Part.named_iff, WrittenRef.named.injEq, base]
  | list inner ih =>
    rw [written, WrittenRef.Part.single_iff, ih, base]
    exact ⟨fun either => either.resolve_left nofun, .inr⟩
  | nonNull inner ih =>
    rw [written, WrittenRef.Part.nonNull_iff, ih, base]
    exact ⟨fun either => either.resolve_left nofun, .inr⟩

theorem check_written_eq (ref : TypeRef) : ref.written.check =
    if Text.isAllBlank ref.base then .error .blankName else .ok ref := by
  induction ref with
  | named name => rfl
  | list inner ih =>
    rw [written, WrittenRef.check, ih, base]
    split <;> rfl
  | nonNull inner ih =>
    rw [written, WrittenRef.check, ih, base]
    split <;> rfl

theorem check_written (named : Text.isAllBlank ref.base = false) : ref.written.check = .ok ref := by
  rw [check_written_eq, named]
  rfl

end TypeRef

namespace WrittenRef

variable {written : WrittenRef} {ref : TypeRef}

-- What is not written for any reference has an outermost list to blame.
theorem written_or_unfit (written : WrittenRef) : (∃ ref : TypeRef, ref.written = written) ∨
    ∃ items, Outermost written items ∧ written.check = .error (.listLength items.length) := by
  induction written using check.induct with
  | case1 name | case2 name => exact .inl ⟨.named name, rfl⟩
  | case3 inner ih =>
    rcases ih with ⟨ref, rfl⟩ | ⟨items, outer, refused⟩
    · exact .inl ⟨.list ref, rfl⟩
    · refine .inr ⟨items, outer.single, ?_⟩
      rw [check, refused]
      rfl
  | case4 items several =>
    have unfit : items.length ≠ 1 := by
      intro one
      obtain ⟨item, rfl⟩ := List.length_eq_one_iff.mp one
      exact several item rfl
    refine .inr ⟨items, ⟨.whole, unfit, fun _ isPart _ => isPart⟩, ?_⟩
    rw [check]
    exact several
  | case5 inner ih =>
    rcases ih with ⟨ref, rfl⟩ | ⟨items, outer, refused⟩
    · exact .inl ⟨.nonNull ref, rfl⟩
    · refine .inr ⟨items, outer.nonNull, ?_⟩
      rw [check, refused]
      rfl

theorem single_iff : written.Single ↔ ∃ ref : TypeRef, ref.written = written := by
  constructor
  · intro single
    rcases written_or_unfit written with fits | ⟨items, outer, -⟩
    · exact fits
    · exact absurd (single items outer.isPart) outer.unfit
  · rintro ⟨ref, rfl⟩
    exact ref.single_written

theorem check_ok_iff : written.check = .ok ref ↔
    ref.written = written ∧ Text.isAllBlank ref.base = false := by
  constructor
  · intro passes
    rcases written_or_unfit written with ⟨other, rfl⟩ | ⟨items, -, refused⟩
    · rw [TypeRef.check_written_eq] at passes
      split at passes
      · cases passes
      · rename_i named
        cases passes
        exact ⟨rfl, Bool.not_eq_true _ ▸ named⟩
    · rw [refused] at passes
      cases passes
  · rintro ⟨rfl, named⟩
    exact TypeRef.check_written named

theorem check_blank_iff : written.check = .error .blankName ↔
    ∃ ref : TypeRef, ref.written = written ∧ Text.isAllBlank ref.base = true := by
  constructor
  · intro refusal
    rcases written_or_unfit written with ⟨ref, rfl⟩ | ⟨items, -, refused⟩
    · rw [TypeRef.check_written_eq] at refusal
      split at refusal
      · rename_i blank
        exact ⟨ref, rfl, blank⟩
      · cases refusal
    · rw [refused] at refusal
      cases refusal
  · rintro ⟨ref, rfl, blank⟩
    rw [TypeRef.check_written_eq, if_pos blank]

theorem check_length_iff {found : Nat} : written.check = .error (.listLength found) ↔
    ∃ items, Outermost written items ∧ items.length = found := by
  constructor
  · intro refusal
    rcases written_or_unfit written with ⟨ref, rfl⟩ | ⟨items, outer, refused⟩
    · rw [TypeRef.check_written_eq] at refusal
      split at refusal <;> cases refusal
    · rw [refused] at refusal
      cases refusal
      exact ⟨items, outer, rfl⟩
  · rintro ⟨items, outer, rfl⟩
    rcases written_or_unfit written with ⟨ref, rfl⟩ | ⟨others, outerToo, refused⟩
    · exact absurd (ref.single_written items outer.isPart) outer.unfit
    · rw [refused, outer.unique outerToo]

theorem blank_iff {blank : Bool} :
    (∃ ref : TypeRef, ref.written = written ∧ Text.isAllBlank ref.base = blank) ↔
      written.Single ∧ ∃ name, Part (.named name) written ∧ Text.isAllBlank name = blank := by
  rw [single_iff]
  constructor
  · rintro ⟨ref, rfl, look⟩
    exact ⟨⟨ref, rfl⟩, ref.base, TypeRef.name_written.mpr rfl, look⟩
  · rintro ⟨⟨ref, rfl⟩, name, isPart, look⟩
    exact ⟨ref, rfl, TypeRef.name_written.mp isPart ▸ look⟩

-- What does not pass is refused with the length of the outermost list that does not hold one
-- item, or, where there is no such list, for its blank name.
theorem check_exact (written : WrittenRef) :
    ((∃ ref, written.check = .ok ref) ↔
      written.Single ∧ ∃ name, Part (.named name) written ∧ Text.isAllBlank name = false) ∧
    (∀ ref, written.check = .ok ref →
      ref.written = written ∧ ∀ name, Part (.named name) written ↔ name = ref.base) ∧
    (∀ ref : TypeRef, Text.isAllBlank ref.base = false → ref.written.check = .ok ref) ∧
    (∀ found, written.check = .error (.listLength found) ↔
      ∃ items, Outermost written items ∧ items.length = found) ∧
    (written.check = .error .blankName ↔
      written.Single ∧ ∃ name, Part (.named name) written ∧ Text.isAllBlank name = true) := by
  refine ⟨?_, ?_, fun _ => TypeRef.check_written, fun _ => check_length_iff, ?_⟩
  · simp only [check_ok_iff]
    exact blank_iff
  · intro ref passes
    obtain ⟨rfl, -⟩ := check_ok_iff.mp passes
    exact ⟨rfl, fun _ => TypeRef.name_written⟩
  · rw [check_blank_iff]
    exact blank_iff

end WrittenRef

end SchemaSampler
