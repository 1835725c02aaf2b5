import SchemaSampler.Proofs.Query.Checked
import SchemaSampler.Proofs.Query.Replacement

namespace SchemaSampler.Query

open Checked (quotes)

-- A string ends at the first quote that is not escaped.
inductive StringTail : List Char → Prop where
  | close : StringTail ['"']
  | escaped (more : StringTail tail) : StringTail ('\\' :: c :: tail)
  | plain (inside : c ∉ ['"', '\\']) (more : StringTail tail) : StringTail (c :: tail)

-- A block string ends at the first three quotes, except for such as a backslash stands before.
inductive BlockTail : List Char → Prop where
  | close : BlockTail quotes
  | escaped (more : BlockTail tail) : BlockTail ('\\' :: (quotes ++ tail))
  | plain (notEscaped : ¬ '\\' :: quotes <+: c :: tail) (notQuotes : ¬ quotes <+: c :: tail)
      (more : BlockTail tail) : BlockTail (c :: tail)

-- Three quotes never begin a string.
inductive Items : List Char → Prop where
  | none : Items []
  | group (inner : Items inside) (more : Items rest) : Items ('(' :: (inside ++ ')' :: rest))
  | block (body : BlockTail tail) (more : Items rest) : Items (quotes ++ (tail ++ rest))
  | string (notBlock : ¬ quotes <+: '"' :: (tail ++ rest)) (body : StringTail tail)
      (more : Items rest) : Items ('"' :: (tail ++ rest))
  | other (plain : c ∉ ['(', ')', '"']) (more : Items rest) : Items (c :: rest)

inductive GroupText : List Char → Prop where
  | parens (items : Items inside) : GroupText ('(' :: (inside ++ [')']))

inductive Closing : Nat → List Char → Prop where
  | last (items : Items inside) : Closing 1 (inside ++ [')'])
  | outer (items : Items inside) (more : Closing depth rest) :
      Closing (depth + 1) (inside ++ ')' :: rest)

namespace Closing

variable {depth : Nat} {tail rest : List Char} {c : Char}

theorem other (plain : c ∉ ['(', ')', '"']) (closing : Closing depth rest) :
    Closing depth (c :: rest) := by
  cases closing with
  | last items => exact .last (.other plain items)
  | outer items more => exact .outer (.other plain items) more

theorem block (body : BlockTail tail) (closing : Closing depth rest) :
    Closing depth (quotes ++ (tail ++ rest)) := by
  cases closing with
  | last items =>
    have longer := Closing.last (.block body items)
    simpa only [List.append_assoc] using longer
  | outer items more =>
    have longer := Closing.outer (.block body items) more
    simpa only [List.append_assoc] using longer

theorem string (notBlock : ¬ quotes <+: '"' :: (tail ++ rest)) (body : StringTail tail)
    (closing : Closing depth rest) : Closing depth ('"' :: (tail ++ rest)) := by
  -- What does not begin the text does not begin a part of it either.
  have inPart : ∀ part after, rest = part ++ after → ¬ quotes <+: '"' :: (tail ++ part) := by
    rintro part after rfl begins
    refine notBlock (begins.trans ⟨after, ?_⟩)
    simp only [List.cons_append, List.append_assoc]
  cases closing with
  | last items =>
    have longer := Closing.last (.string (inPart _ _ rfl) body items)
    simpa only [List.cons_append, List.append_assoc] using longer
  | outer items more =>
    have longer := Closing.outer (.string (inPart _ _ rfl) body items) more
    simpa only [List.cons_append, List.append_assoc] using longer

theorem opened (closing : Closing (depth + 2) rest) : Closing (depth + 1) ('(' :: rest) := by
  cases closing with
  | @outer inside _ after inner more =>
    cases more with
    | last items =>
      have longer := Closing.last (.group inner items)
      simpa only [List.cons_append, List.append_assoc] using longer
    | outer items more =>
      have longer := Closing.outer (.group inner items) more
      simpa only [List.cons_append, List.append_assoc] using longer

end Closing

def Readable : Place → Nat → List Char → Prop
  | .plain, depth, text => Closing depth text
  | .string false, depth, text =>
    ∃ tail rest, text = tail ++ rest ∧ StringTail tail ∧ Closing depth rest
  | .string true, depth, text =>
    ∃ c tail rest, text = c :: (tail ++ rest) ∧ StringTail tail ∧ Closing depth rest
  | .block, depth, text => ∃ tail rest, text = tail ++ rest ∧ BlockTail tail ∧ Closing depth rest

theorem closeGroup_readable {place : Place} {depth : Nat} {text inside rest : List Char}
    (opened : 0 < depth) (closed : closeGroup place depth text = some (inside, rest)) :
    Readable place depth inside := by
  fun_induction closeGroup place depth text generalizing inside rest with
  | case1 => cases closed
  | case2 depth c later ih =>
    obtain ⟨deeper, found, rfl⟩ := keep_some closed
    obtain ⟨tail, after, same, body, closing⟩ := ih opened found
    exact ⟨c, tail, after, by rw [same, List.singleton_append], body, closing⟩
  | case3 depth later ih =>
    obtain ⟨deeper, found, rfl⟩ := keep_some closed
    obtain ⟨c, tail, after, same, body, closing⟩ := ih opened found
    exact ⟨'\\' :: c :: tail, after, by rw [same]; rfl, .escaped body, closing⟩
  | case4 depth later notEscape ih =>
    obtain ⟨deeper, found, rfl⟩ := keep_some closed
    exact ⟨['"'], deeper, rfl, .close, ih opened found⟩
  | case5 depth c later notEscape notQuote ih =>
    obtain ⟨deeper, found, rfl⟩ := keep_some closed
    obtain ⟨tail, after, same, body, closing⟩ := ih opened found
    refine ⟨c :: tail, after, by rw [same]; rfl, .plain ?_ body, closing⟩
    simp [notEscape, notQuote]
  | case6 depth later ih =>
    obtain ⟨deeper, found, rfl⟩ := keep_some closed
    obtain ⟨tail, after, same, body, closing⟩ := ih opened found
    exact ⟨'\\' :: (quotes ++ tail), after, by rw [same]; rfl, .escaped body, closing⟩
  | case7 depth later ih =>
    obtain ⟨deeper, found, rfl⟩ := keep_some closed
    exact ⟨quotes, deeper, rfl, .close, ih opened found⟩
  | case8 depth c later notEscaped notQuotes ih =>
    obtain ⟨deeper, found, rfl⟩ := keep_some closed
    obtain ⟨tail, after, same, body, closing⟩ := ih opened found
    have inText : c :: tail <+: c :: later := by
      refine ⟨after ++ rest, ?_⟩
      rw [← closeGroup_whole found, same, List.cons_append, List.append_assoc]
    refine ⟨c :: tail, after, by rw [same]; rfl, .plain ?_ ?_ body, closing⟩
    · intro begins
      obtain ⟨more, equal⟩ := begins.trans inText
      cases equal
      exact notEscaped more rfl rfl
    · intro begins
      obtain ⟨more, equal⟩ := begins.trans inText
      cases equal
      exact notQuotes more rfl rfl
  | case9 depth later ih =>
    obtain ⟨deeper, found, rfl⟩ := keep_some closed
    obtain ⟨tail, after, same, body, closing⟩ := ih opened found
    rw [same]
    exact closing.block body
  | case10 depth later notQuotes ih =>
    obtain ⟨deeper, found, rfl⟩ := keep_some closed
    obtain ⟨tail, after, same, body, closing⟩ := ih opened found
    have inText : '"' :: (tail ++ after) <+: '"' :: later := by
      refine ⟨rest, ?_⟩
      rw [← closeGroup_whole found, same, List.cons_append]
    have notBlock : ¬ quotes <+: '"' :: (tail ++ after) := by
      intro begins
      obtain ⟨more, equal⟩ := begins.trans inText
      cases equal
      exact notQuotes more rfl rfl
    rw [same, List.singleton_append]
    exact closing.string notBlock body
  | case11 depth later _ _ ih =>
    obtain ⟨deeper, found, rfl⟩ := keep_some closed
    obtain ⟨depth, rfl⟩ := Nat.exists_eq_add_of_lt opened
    exact (ih (Nat.succ_pos _) found).opened
  | case12 depth later last =>
    obtain rfl : depth = 1 := by omega
    cases closed
    exact .last .none
  | case13 depth later notLast _ _ _ ih =>
    obtain ⟨deeper, found, rfl⟩ := keep_some closed
    obtain ⟨depth, rfl⟩ := Nat.exists_eq_add_of_lt (Nat.lt_of_not_le notLast)
    exact @Closing.outer [] _ _ .none (ih (by omega) found)
  | case14 depth c later _ notQuote notOpen notClose ih =>
    obtain ⟨deeper, found, rfl⟩ := keep_some closed
    refine (ih opened found).other ?_
    simp [notQuote, notOpen, notClose]

theorem keep_keep (first second : List Char) (closed : Option (List Char × List Char)) :
    closeGroup.keep first (closeGroup.keep second closed) =
      closeGroup.keep (first ++ second) closed := by
  cases closed with
  | none => rfl
  | some pair => simp [closeGroup.keep]

theorem keep_nil (closed : Option (List Char × List Char)) : closeGroup.keep [] closed = closed := by
  cases closed <;> rfl

theorem StringTail.scan {tail : List Char} (body : StringTail tail) (depth : Nat)
    (other : List Char) : closeGroup (.string false) depth (tail ++ other) =
      closeGroup.keep tail (closeGroup .plain depth other) := by
  induction body with
  | close => simp [closeGroup]
  | escaped more ih => simp [closeGroup, ih, keep_keep]
  | plain inside more ih =>
    simp only [List.mem_cons, List.not_mem_nil, or_false, not_or] at inside
    simp [closeGroup, inside, ih, keep_keep]

theorem BlockTail.long {tail : List Char} (body : BlockTail tail) : 3 ≤ tail.length := by
  induction body with
  | close => exact Nat.le_refl _
  | escaped more ih =>
    rw [List.length_cons, List.length_append]
    omega
  | plain notEscaped notQuotes more ih => exact Nat.le_succ_of_le ih

theorem BlockTail.scan {tail : List Char} (body : BlockTail tail) (depth : Nat)
    (other : List Char) : closeGroup .block depth (tail ++ other) =
      closeGroup.keep tail (closeGroup .plain depth other) := by
  induction body with
  | close => simp [quotes, closeGroup]
  | escaped more ih => simp [quotes, closeGroup, ih, keep_keep]
  | @plain c tail notEscaped notQuotes more ih =>
    have long := more.long
    have within : ∀ pattern : List Char, pattern.length ≤ 4 →
        pattern <+: c :: (tail ++ other) → pattern <+: c :: tail := by
      intro pattern short begins
      refine List.prefix_of_prefix_length_le begins ⟨other, rfl⟩ ?_
      rw [List.length_cons]
      omega
    rw [List.cons_append, closeGroup, ih, keep_keep]
    · rfl
    · rintro more rfl same
      exact notEscaped (within _ (by decide) ⟨more, by rw [same]; rfl⟩)
    · rintro more rfl same
      exact notQuotes (within _ (by decide) ⟨more, by rw [same]; rfl⟩)

theorem StringTail.ne_nil {tail : List Char} (body : StringTail tail) : tail ≠ [] := by
  cases body <;> exact List.cons_ne_nil _ _

theorem notBlock_append {front other : List Char} (nonempty : front ≠ [])
    (apart : other.head? ≠ some '"') (notBlock : ¬ quotes <+: '"' :: front) :
    ¬ quotes <+: '"' :: (front ++ other) := by
  intro begins
  match front with
  | [] => exact nonempty rfl
  | [c] =>
    obtain ⟨more, same⟩ := begins
    cases same
    exact apart rfl
  | c :: d :: rest =>
    refine notBlock (List.prefix_of_prefix_length_le begins ⟨other, rfl⟩ ?_)
    simp [quotes]

-- The parenthesis that opened the group is not closed in it.
inductive Passes : Nat → List Char → Nat → Prop where
  | stop : Passes depth [] depth
  | opened (more : Passes (depth + 1) rest last) : Passes depth ('(' :: rest) last
  | closed (more : Passes (depth + 1) rest last) : Passes (depth + 2) (')' :: rest) last
  | block (body : BlockTail tail) (more : Passes depth rest last) :
      Passes depth (quotes ++ (tail ++ rest)) last
  | string (notBlock : ¬ quotes <+: '"' :: (tail ++ rest)) (body : StringTail tail)
      (more : Passes depth rest last) : Passes depth ('"' :: (tail ++ rest)) last
  | other (plain : c ∉ ['(', ')', '"']) (more : Passes depth rest last) :
      Passes depth (c :: rest) last

namespace Passes

variable {depth next last : Nat} {front other : List Char}

theorem append (passes : Passes depth front next) (later : Passes next other last)
    (apart : other.head? ≠ some '"') : Passes depth (front ++ other) last := by
  induction passes with
  | stop => exact later
  | opened more ih => exact .opened (ih later)
  | closed more ih => exact .closed (ih later)
  | block body more ih =>
    rw [List.append_assoc, List.append_assoc]
    exact .block body (ih later)
  | string notBlock body more ih =>
    have stillNotBlock := notBlock_append (by simp [body.ne_nil]) apart notBlock
    rw [List.append_assoc] at stillNotBlock
    rw [List.cons_append, List.append_assoc]
    exact .string stillNotBlock body (ih later)
  | other plain more ih => exact .other plain (ih later)

theorem scan (passes : Passes depth front last) (apart : other.head? ≠ some '"') :
    closeGroup .plain depth (front ++ other) =
      closeGroup.keep front (closeGroup .plain last other) := by
  induction passes with
  | stop => rw [keep_nil, List.nil_append]
  | opened more ih => simp [closeGroup, ih, keep_keep]
  | closed more ih => simp [closeGroup, ih, keep_keep]
  | block body more ih => simp [quotes, closeGroup, body.scan, ih, keep_keep]
  | @string tail rest depth last notBlock body more ih =>
    have inString := body.scan depth (rest ++ other)
    rw [ih, ← List.append_assoc] at inString
    have stillNotBlock := notBlock_append (by simp [body.ne_nil]) apart notBlock
    rw [List.cons_append, closeGroup, if_pos rfl, inString, keep_keep, keep_keep]
    · simp
    · intro more _ same
      exact stillNotBlock ⟨more, by rw [same]; rfl⟩
  | other plain more ih =>
    simp only [List.mem_cons, List.not_mem_nil, or_false, not_or] at plain
    simp [closeGroup, plain, ih, keep_keep]

end Passes

def Level (depth : Nat) (text : List Char) : Prop := Passes depth text depth

theorem Items.level {text : List Char} (items : Items text) {depth : Nat} (opened : 0 < depth) :
    Level depth text := by
  induction items generalizing depth with
  | none => exact .stop
  | group inner more innerLevel moreLevel =>
    obtain ⟨depth, rfl⟩ := Nat.exists_eq_add_of_lt opened
    exact .opened ((innerLevel (Nat.succ_pos _)).append (.closed (moreLevel opened)) (by simp))
  | block body more ih => exact .block body (ih opened)
  | string notBlock body more ih => exact .string notBlock body (ih opened)
  | other plain more ih => exact .other plain (ih opened)

theorem Closing.one {text : List Char} (closing : Closing 1 text) :
    ∃ inside, Items inside ∧ text = inside ++ [')'] := by
  cases closing with
  | last items => exact ⟨_, items, rfl⟩
  | outer items more => cases more

theorem group_closed_iff {text found rest : List Char} :
    group text = .closed found rest ↔ found ++ rest = text ∧ GroupText found := by
  constructor
  · intro closed
    refine ⟨(group_closed closed).1, ?_⟩
    unfold group at closed
    split at closed
    · split at closed
      · rename_i inside after read
        cases closed
        obtain ⟨items, whole, rfl⟩ := Closing.one (closeGroup_readable Nat.one_pos read)
        exact .parens whole
      · cases closed
    · cases closed
  · rintro ⟨rfl, group⟩
    cases group with
    | @parens inside items =>
      have scanned : closeGroup .plain 1 (inside ++ ')' :: rest) = _ :=
        (items.level Nat.one_pos).scan (by simp)
      simp [Query.group, scanned, closeGroup, closeGroup.keep]

theorem group_absent_iff {text : List Char} : group text = .absent ↔ text.head? ≠ some '(' := by
  constructor
  · intro absent opens
    unfold group at absent
    split at absent
    · split at absent <;> cases absent
    · rename_i other
      obtain ⟨rest, rfl⟩ := List.head?_eq_some_iff.mp opens
      exact other rest rfl
  · exact group_absent

theorem group_unclosed_iff {text : List Char} : group text = .unclosed ↔
    text.head? = some '(' ∧ ∀ found, GroupText found → ¬ found <+: text := by
  constructor
  · intro unclosed
    constructor
    · refine Decidable.byContradiction fun other => ?_
      rw [group_absent other] at unclosed
      cases unclosed
    · rintro found isGroup ⟨rest, whole⟩
      rw [group_closed_iff.mpr ⟨whole, isGroup⟩] at unclosed
      cases unclosed
  · rintro ⟨opens, never⟩
    cases read : group text with
    | unclosed => rfl
    | absent => exact absurd opens (group_absent_iff.mp read)
    | closed found rest =>
      obtain ⟨whole, isGroup⟩ := group_closed_iff.mp read
      exact absurd ⟨rest, whole⟩ (never found isGroup)

theorem skipGroup_error_iff {text : List Char} {refusal : Fault} : skipGroup text = .error refusal ↔
    group (ignored text) = .unclosed ∧ refusal = ⟨.unclosedGroup, ignored text⟩ := by
  unfold skipGroup
  split
  · rename_i absent
    simp [absent]
  · rename_i unclosed
    simp [unclosed, fault, eq_comm]
  · rename_i closed
    simp [closed]

-- Where a parenthesis but no group begins the text, it is refused at that parenthesis.
theorem group_exact (text : List Char) :
    Checked.group text = some (group text) ∧
      (∀ found rest, group text = .closed found rest ↔ found ++ rest = text ∧ GroupText found) ∧
        (∀ one other, GroupText one → GroupText other → one <+: text → other <+: text →
          one = other) ∧
        (group text = .absent ↔ text.head? ≠ some '(') ∧
        (group text = .unclosed ↔
          text.head? = some '(' ∧ ∀ found, GroupText found → ¬ found <+: text) ∧
        ∀ refusal, skipGroup text = .error refusal ↔
          group (ignored text) = .unclosed ∧ refusal = ⟨.unclosedGroup, ignored text⟩ := by
  refine ⟨Checked.group_eq text, fun _ _ => group_closed_iff, ?_, group_absent_iff,
    group_unclosed_iff, fun _ => skipGroup_error_iff⟩
  rintro one other isGroup isOther ⟨rest, whole⟩ ⟨otherRest, otherWhole⟩
  have read := group_closed_iff.mpr ⟨whole, isGroup⟩
  rw [group_closed_iff.mpr ⟨otherWhole, isOther⟩] at read
  cases read
  rfl

-- Escaped quotes do not end a block string, and its parentheses do not count.
example : group "(x: \"\"\"a \\\"\"\" ) b\"\"\") c".toList =
    .closed "(x: \"\"\"a \\\"\"\" ) b\"\"\")".toList " c".toList := by
  decide

end SchemaSampler.Query
