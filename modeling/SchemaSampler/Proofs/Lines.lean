import SchemaSampler.Output
import SchemaSampler.Proofs.Json.Spelling

-- No character below U+0020 is written as it is, so that no line end stands in a value.

namespace SchemaSampler

-- U+007F and the line separators, which JSON leaves as they are, may stand in such texts.
def Printed (text : List Char) : Prop := ∀ c ∈ text, 0x20 ≤ c.toNat

section Printed

variable {text more : List Char}

@[simp]
theorem printed_nil : Printed [] := by simp [Printed]

@[simp]
theorem printed_cons {c : Char} : Printed (c :: text) ↔ 0x20 ≤ c.toNat ∧ Printed text :=
  List.forall_mem_cons

@[simp]
theorem printed_append : Printed (text ++ more) ↔ Printed text ∧ Printed more :=
  List.forall_mem_append

theorem printed_flatMap {items : List α} {write : α → List Char}
    (each : ∀ item ∈ items, Printed (write item)) : Printed (items.flatMap write) := by
  intro c member
  obtain ⟨item, inside, written⟩ := List.mem_flatMap.mp member
  exact each item inside c written

theorem Printed.take (printed : Printed text) (count : Nat) : Printed (text.take count) :=
  fun c member => printed c (List.mem_of_mem_take member)

theorem Printed.drop (printed : Printed text) (count : Nat) : Printed (text.drop count) :=
  fun c member => printed c (List.mem_of_mem_drop member)

theorem lineEnd_not_mem (printed : Printed text) : '\n' ∉ text := by
  intro member
  exact absurd (printed '\n' member) (by decide)

theorem printed_toDigits (number : Nat) : Printed (Nat.toDigits 10 number) := by
  intro c member
  have digit := Nat.isDigit_of_mem_toDigits (by decide) (by decide) member
  simp only [Char.isDigit, Bool.and_eq_true, decide_eq_true_eq, UInt32.le_iff_toNat_le] at digit
  change 48 ≤ c.toNat ∧ _ at digit
  omega

end Printed

namespace Decimal.Layout

theorem printed_zeros (count : Int) : Printed (zeros count) := by
  intro c member
  rw [List.eq_of_mem_replicate member]
  decide

theorem printed_digits (layout : Layout) (d : Digits) : Printed (layout.digits d) := by
  have text := printed_toDigits d.digits
  unfold digits
  dsimp only
  split
  · -- a positional number
    split
    · simp [printed_zeros, text]
    · split
      · rw [printed_append, printed_append]
        refine ⟨⟨text, printed_zeros _⟩, ?_⟩
        split <;> simp
      · rw [printed_append, printed_cons]
        exact ⟨text.take _, by decide, text.drop _⟩
  · -- a number with an exponent
    rw [printed_append, printed_cons, printed_append]
    refine ⟨?_, by decide, ?_, printed_toDigits _⟩
    · split
      · rename_i first second rest spelled
        rw [spelled] at text
        simp only [printed_cons] at text ⊢
        exact ⟨text.1, by decide, text.2⟩
      · exact text
    · split
      · simp
      · split <;> simp

theorem printed_render {layout : Layout} (notANumber : Printed layout.notANumber.toList)
    (infinite : Printed layout.infinite.toList) (value : Float) :
    Printed (layout.render value).toList := by
  unfold render
  dsimp only
  split
  · exact notANumber
  · rw [String.toList_ofList, printed_append]
    constructor
    · split <;> simp
    · split
      · exact infinite
      · exact printed_digits layout _

end Decimal.Layout

namespace Json

theorem printed_hexDigit : ∀ digit < 16, 0x20 ≤ (Nat.digitChar digit).toNat := by
  decide

theorem printed_escape (c : Char) : Printed (escape c) := by
  by_cases short : c ∈ shortEscaped
  · simp only [shortEscaped, List.mem_cons, List.not_mem_nil, or_false] at short
    rcases short with rfl | rfl | rfl | rfl | rfl | rfl | rfl
    all_goals exact List.forall_mem_cons.mpr ⟨by decide, List.forall_mem_singleton.mpr (by decide)⟩
  · rw [escape_long short]
    split
    · have hex (value : Nat) : 0x20 ≤ (hexDigit value).toNat :=
        printed_hexDigit (value % 16) (Nat.mod_lt _ (by decide))
      simp [hex]
    · rename_i visible
      exact printed_cons.mpr ⟨Nat.le_of_not_lt visible, printed_nil⟩

theorem printed_quoted (content : String) : Printed (quoted content) := by
  rw [quoted, printed_cons, printed_append, printed_cons]
  exact ⟨by decide, printed_flatMap fun c _ => printed_escape c, by decide, printed_nil⟩

theorem printed_number (number : Number) : Printed (numberText number) := by
  cases number with
  | int value =>
    rw [numberText, intText]
    split
    · exact printed_cons.mpr ⟨by decide, printed_toDigits _⟩
    · exact printed_toDigits _
  | float value =>
    have words : ∀ word ∈ ["NaN", "inf"], Printed word.toList := by
      simp
    exact Decimal.Layout.printed_render (words _ (by simp [Decimal.Layout.json]))
      (words _ (by simp [Decimal.Layout.json])) value

mutual

theorem printed_compact : ∀ value : Json, Printed value.compact
  | null => by simp [compact]
  | bool true => by simp [compact]
  | bool false => by simp [compact]
  | num number => printed_number number
  | str text => printed_quoted text
  | arr items => by
    rw [compact, printed_cons, printed_append]
    exact ⟨by decide, printed_items items, by simp⟩
  | obj members => by
    rw [compact, printed_cons, printed_append]
    exact ⟨by decide, printed_members members, by simp⟩

theorem printed_items : ∀ items : List Json, Printed (compactItems items)
  | [] => printed_nil
  | [item] => printed_compact item
  | item :: other :: rest => by
    rw [compactItems, printed_append, printed_cons]
    exact ⟨printed_compact item, by decide, printed_items (other :: rest)⟩
    nofun

theorem printed_members : ∀ members : List (String × Json), Printed (compactMembers members)
  | [] => printed_nil
  | [(name, value)] => by
    rw [compactMembers, printed_append, printed_cons]
    exact ⟨printed_quoted name, by decide, printed_compact value⟩
  | (name, value) :: other :: rest => by
    rw [compactMembers, printed_append, printed_cons, printed_append, printed_cons]
    exact ⟨printed_quoted name, by decide, printed_compact value, by decide,
      printed_members (other :: rest)⟩
    nofun

end

theorem lineEnd_not_mem_text (value : Json) : '\n' ∉ value.text.toList := by
  rw [text, String.toList_ofList]
  exact lineEnd_not_mem (printed_compact value)

end Json

namespace Output

theorem write_cons (value : Json) (rest : List Json) :
    (write .lines (value :: rest)).toList =
      value.text.toList ++ '\n' :: (write .lines rest).toList := by
  simp [write, line, String.join_cons]

theorem write_splitOn (values : List Json) :
    (write .lines values).toList.splitOn '\n' = values.map (fun value => value.text.toList) ++ [[]] := by
  induction values with
  | nil => rfl
  | cons value rest ih =>
    rw [write_cons, List.splitOn_append_cons_self_of_not_mem value.lineEnd_not_mem_text, ih]
    rfl

theorem write_split (values : List Json) :
    ((write .lines values).split '\n').toList.map String.Slice.copy =
      values.map Json.text ++ [""] := by
  simp [String.toList_split_char, write_splitOn]

theorem write_count (values : List Json) :
    (write .lines values).toList.count '\n' = values.length := by
  induction values with
  | nil => rfl
  | cons value rest ih =>
    rw [write_cons, List.count_append, List.count_eq_zero_of_not_mem value.lineEnd_not_mem_text,
      List.count_cons_self, ih, List.length_cons, Nat.zero_add]

theorem write_cut {values : List Json} {before after : List Char}
    (cut : (write .lines values).toList = before ++ '\n' :: after) :
    ∃ earlier value later, values = earlier ++ value :: later ∧
      before = (write .lines earlier).toList ++ value.text.toList ∧
      after = (write .lines later).toList := by
  induction values generalizing before with
  | nil => simp [write] at cut
  | cons value rest ih =>
    rw [write_cons] at cut
    have unbroken := value.lineEnd_not_mem_text
    rcases List.append_eq_append_iff.mp cut with ⟨more, rfl, later⟩ | ⟨more, whole, later⟩
    · cases more with
      | nil =>
        cases later
        exact ⟨[], value, rest, rfl, by simp [write], rfl⟩
      | cons first more =>
        obtain ⟨rfl, tail⟩ := List.cons_eq_cons.mp later
        obtain ⟨earlier, last, others, rfl, rfl, rfl⟩ := ih tail
        refine ⟨value :: earlier, last, others, rfl, ?_, rfl⟩
        rw [write_cons, List.append_assoc, List.cons_append]
    · cases more with
      | nil =>
        rw [List.append_nil] at whole
        cases later
        exact ⟨[], value, rest, rfl, by simp [write, whole], rfl⟩
      | cons first more =>
        obtain ⟨rfl, _⟩ := List.cons_eq_cons.mp later
        rw [whole] at unbroken
        simp at unbroken

-- There are as many line ends as values; lists of values written alike have the same texts.
theorem lines_recovered (values : List Json) :
    ((write .lines values).split '\n').toList.map String.Slice.copy =
      values.map Json.text ++ [""] ∧
    (write .lines values).toList.count '\n' = values.length ∧
    (∀ before after, (write .lines values).toList = before ++ '\n' :: after →
      ∃ earlier value later, values = earlier ++ value :: later ∧
        before = (write .lines earlier).toList ++ value.text.toList ∧
        after = (write .lines later).toList) ∧
    ∀ others, write .lines others = write .lines values ↔
      others.map Json.text = values.map Json.text := by
  refine ⟨write_split values, write_count values, fun _ _ => write_cut, fun others => ?_⟩
  constructor
  · intro same
    have split := write_split others
    rw [same, write_split] at split
    exact (List.append_cancel_right split).symm
  · intro same
    have lines (values : List Json) :
        values.map line = (values.map Json.text).map (· ++ "\n") := by simp [line]
    rw [write, write, lines, lines, same]

end Output

end SchemaSampler
