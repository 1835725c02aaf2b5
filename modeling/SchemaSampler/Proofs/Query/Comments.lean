import SchemaSampler.Proofs.Query.Interchange

-- The end of a group is looked for without regard to comments.

namespace SchemaSampler.Query

open Checked (quotes)

section

variable {front rest line : List Char} {depth last left : Nat}

theorem StringTail.getLast? {tail : List Char} (body : StringTail tail) :
    tail.getLast? = some '"' := by
  induction body with
  | close => rfl
  | escaped more ih => simp [List.getLast?_cons, ih]
  | plain inside more ih => simp [List.getLast?_cons, ih]

theorem BlockTail.getLast? {tail : List Char} (body : BlockTail tail) :
    tail.getLast? = some '"' := by
  induction body with
  | close => rfl
  | escaped more ih => simp [List.getLast?_cons, quotes, ih]
  | plain notEscaped notQuotes more ih => simp [List.getLast?_cons, ih]

theorem literal_in_line (literal : front.getLast? = some '"')
    (same : front ++ rest = line ++ '\n' :: List.replicate left ')') :
    ∃ more, line = front ++ more ∧ rest = more ++ '\n' :: List.replicate left ')' := by
  rcases List.append_eq_append_iff.mp same with ⟨more, whole, others⟩ | ⟨beyond, whole, others⟩
  · exact ⟨more, whole, others⟩
  · cases beyond with
    | nil => exact ⟨[], by simpa using whole.symm, by simpa using others.symm⟩
    | cons c beyond =>
      have quote : (c :: beyond).getLast? = some '"' := by
        rw [whole, List.getLast?_append, List.getLast?_cons] at literal
        rwa [List.getLast?_cons]
      have member : '"' ∈ '\n' :: List.replicate left ')' := by
        rw [others]
        exact List.mem_append_left rest (List.mem_of_getLast? quote)
      simp at member

theorem Passes.closings (passes : Passes depth (List.replicate left ')') last) :
    depth = last + left := by
  induction left generalizing depth with
  | zero =>
    cases passes
    rfl
  | succ left ih =>
    generalize same : List.replicate (left + 1) ')' = text at passes
    rw [List.replicate_succ] at same
    cases passes with
    | closed more =>
      cases same
      have fewer := ih more
      omega
    | other plain more =>
      cases same
      exact absurd (by simp) plain
    | _ => cases same

theorem Passes.onLine (passes : Passes depth (line ++ '\n' :: List.replicate left ')') last) :
    Passes depth line (last + left) := by
  generalize same : line ++ '\n' :: List.replicate left ')' = text at passes
  induction passes generalizing line with
  | stop => cases line <;> cases same
  | opened more ih =>
    cases line with
    | nil => cases same
    | cons c line =>
      obtain ⟨rfl, others⟩ := List.cons.inj same
      exact .opened (ih others)
  | closed more ih =>
    cases line with
    | nil => cases same
    | cons c line =>
      obtain ⟨rfl, others⟩ := List.cons.inj same
      exact .closed (ih others)
  | block body more ih =>
    rw [← List.append_assoc] at same
    obtain ⟨after, rfl, rfl⟩ := literal_in_line
      (by rw [List.getLast?_append, body.getLast?, Option.some_or]) same.symm
    rw [List.append_assoc]
    exact .block body (ih rfl)
  | string notBlock body more ih =>
    rw [← List.cons_append] at same
    obtain ⟨after, rfl, rfl⟩ := literal_in_line
      (by rw [List.getLast?_cons, body.getLast?, Option.getD_some]) same.symm
    refine .string (fun begins => notBlock (begins.trans ?_)) body (ih rfl)
    exact ⟨'\n' :: List.replicate left ')', by simp⟩
  | other plain more ih =>
    cases line with
    | nil =>
      cases same
      rw [more.closings]
      exact .stop
    | cons c line =>
      obtain ⟨rfl, others⟩ := List.cons.inj same
      exact .other plain (ih others)

end

theorem Closing.opened_pos {depth : Nat} {text : List Char} (closing : Closing depth text) :
    0 < depth := by
  cases closing <;> exact Nat.succ_pos _

theorem Closing.passes {depth : Nat} {text : List Char} (closing : Closing depth text) :
    ∃ front, text = front ++ [')'] ∧ Passes depth front 1 := by
  induction closing with
  | @last inside items => exact ⟨inside, rfl, items.level Nat.one_pos⟩
  | @outer inside depth rest items more ih =>
    obtain ⟨depth, rfl⟩ := Nat.exists_eq_add_of_lt more.opened_pos
    obtain ⟨front, rfl, passes⟩ := ih
    refine ⟨inside ++ ')' :: front, by simp, ?_⟩
    exact (items.level (Nat.succ_pos _)).append (.closed passes) (by simp)

theorem closings_scan (depth : Nat) : closeGroup .plain (depth + 1)
    (List.replicate (depth + 1) ')') = some (List.replicate (depth + 1) ')', []) := by
  induction depth with
  | zero => rfl
  | succ depth ih =>
    rw [List.replicate_succ]
    have closes : closeGroup .plain (depth + 2) (')' :: List.replicate (depth + 1) ')') =
        closeGroup.keep [')'] (closeGroup .plain (depth + 1) (List.replicate (depth + 1) ')')) := by
      simp [closeGroup]
    rw [closes, ih]
    rfl

-- Closing parentheses after a level line close just as many groups as were open before it.
theorem level_iff {depth : Nat} {line : List Char} : Level (depth + 1) line ↔
    closeGroup .plain (depth + 1) (line ++ '\n' :: List.replicate (depth + 1) ')') =
      some (line ++ '\n' :: List.replicate (depth + 1) ')', []) := by
  constructor
  · intro level
    rw [level.scan (by simp)]
    simp [closeGroup, closings_scan, closeGroup.keep]
  · intro closed
    obtain ⟨front, whole, passes⟩ := (closeGroup_readable (Nat.succ_pos depth) closed).passes
    rw [List.replicate_succ', ← List.cons_append, ← List.append_assoc] at whole
    obtain ⟨rfl, _⟩ := List.append_inj' whole rfl
    have onLine := passes.onLine
    rwa [Nat.add_comm] at onLine

instance (depth : Nat) (line : List Char) : Decidable (Level (depth + 1) line) :=
  decidable_of_iff _ level_iff.symm

example : Level 1 " (b) \"c)\"".toList ∧ ¬ Level 1 "see b)".toList ∧
    ¬ Level 1 "say \"b".toList := by
  decide

-- What the comments before it in groups may hold is said by `kept`.
structure CommentAt (kept : Nat → List Char → Prop) (depth : Nat)
    (front line rest : List Char) : Prop where
  inGroup : Reads kept 0 front (depth + 1)
  inLine : '\n' ∉ line
  ends : ∀ c ∈ rest.head?, c = '\n'

def commented (front line rest : List Char) : String :=
  String.ofList (front ++ ('#' :: line ++ rest))

def blanked (front line rest : List Char) : String :=
  String.ofList (front ++ (List.replicate (line.length + 1) ' ' ++ rest))

theorem plain_items {text : List Char} (plain : ∀ c ∈ text, c ∉ ['(', ')', '"']) :
    Items text := by
  induction text with
  | nil => exact .none
  | cons c text ih => exact .other (plain c (by simp)) (ih fun d member => plain d (by simp [member]))

theorem blanks_items (count : Nat) : Items (List.replicate count ' ') :=
  plain_items fun c member => by
    rw [List.eq_of_mem_replicate member]
    decide

namespace CommentAt

variable {depth : Nat} {front line rest : List Char}

theorem apart {kept : Nat → List Char → Prop} (comment : CommentAt kept depth front line rest) :
    rest.head? ≠ some '"' := by
  intro quote
  exact absurd (comment.ends '"' quote) (by decide)

def swap (comment : CommentAt Level depth front line rest) (level : Level (depth + 1) line) :
    Swap where
  depth := depth + 1
  first := '#' :: line
  second := List.replicate (line.length + 1) ' '
  tail := rest
  inside := Nat.succ_pos depth
  apart := comment.apart
  firstFills := ⟨.other (by decide) level, by simp⟩
  secondFills := ⟨(blanks_items _).level (Nat.succ_pos depth), by simp [List.replicate_succ]⟩

theorem alike (comment : CommentAt Level depth front line rest) (level : Level (depth + 1) line) :
    (comment.swap level).Alike (front ++ ('#' :: line ++ rest))
      (front ++ (List.replicate (line.length + 1) ' ' ++ rest)) :=
  .inr ⟨front, comment.inGroup, rfl, rfl⟩

end CommentAt

-- The comments before it in groups have to be level as well.
theorem level_comment_insignificant {depth : Nat} {front line rest : List Char}
    (comment : CommentAt Level depth front line rest) (level : Level (depth + 1) line)
    (found : List Selection) : parse (commented front line rest) = .ok found ↔
      parse (blanked front line rest) = .ok found := by
  have documents : Document (front ++ ('#' :: line ++ rest)) found ↔
      Document (front ++ (List.replicate (line.length + 1) ' ' ++ rest)) found :=
    (comment.alike level).document_iff
  rw [parse, parse, commented, blanked, String.toList_ofList, String.toList_ofList]
  constructor
  · intro read
    exact parseChars_complete (documents.mp (parseChars_sound read))
  · intro read
    exact parseChars_complete (documents.mpr (parseChars_sound read))

theorem second_comment_insignificant :
    CommentAt Level 0 "\x7ba(#(\"é\")\n".toList " (b)".toList "\n)\x7d".toList ∧
      Level 1 " (b)".toList ∧
      parse (commented "\x7ba(#(\"é\")\n".toList " (b)".toList "\n)\x7d".toList) =
        .ok [⟨"a", none, none⟩] := by
  have first : Level 1 "(\"é\")".toList := by decide
  have level : Level 1 " (b)".toList := by decide
  have reads : Reads Level 0 ('{' :: 'a' :: '(' :: '#' :: ("(\"é\")".toList ++ ['\n'])) 1 :=
    .other (by decide) (.other (by decide)
      (.opened (.comment (by decide) (fun _ => first) .stop)))
  have comment : CommentAt Level 0 "\x7ba(#(\"é\")\n".toList " (b)".toList "\n)\x7d".toList :=
    ⟨reads, by decide, fun _ feed => (Option.some.inj feed).symm⟩
  have closed : group "(#(\"é\")\n     \n)\x7d".toList =
      .closed "(#(\"é\")\n     \n)".toList ['}'] := by decide
  have leaf : HeadAt "a(#(\"é\")\n     \n)\x7d".toList ['a'] none ['}'] :=
    .head (name?_iff.mp (by decide +kernel)) .absent (.present .none closed) .none
  refine ⟨comment, level, (level_comment_insignificant comment level _).mpr ?_⟩
  rw [blanked, parse, String.toList_ofList]
  exact parseChars_complete (.operation .none .absent .none
    (.braces (.more .none (.leaf leaf) .none) .none) .none)

theorem comment_closes_group :
    CommentAt (fun _ _ => True) 0 "\x7ba(".toList ")".toList "\n)\x7d".toList ∧
      (∀ found, parse (commented "\x7ba(".toList ")".toList "\n)\x7d".toList) ≠ .ok found) ∧
      parse (blanked "\x7ba(".toList ")".toList "\n)\x7d".toList) =
        .ok [⟨"a", none, none⟩] := by
  have reads : Reads (fun _ _ => True) 0 ('{' :: 'a' :: '(' :: []) 1 :=
    .other (by decide) (.other (by decide) (.opened .stop))
  have refused : parse (commented "\x7ba(".toList ")".toList "\n)\x7d".toList) =
      .error (.malformed 6 .expectedName false) := by
    rw [commented, parse, String.toList_ofList]
    rfl
  refine ⟨⟨reads, by decide, fun _ feed => (Option.some.inj feed).symm⟩, fun found read => ?_, ?_⟩
  · rw [refused] at read
    cases read
  · rw [blanked, parse, String.toList_ofList]
    rfl

end SchemaSampler.Query
