import SchemaSampler.Proofs.Query.Grammar

namespace SchemaSampler.Query

theorem isSeparator_iff {c : Char} :
    isSeparator c = true ↔ c ∈ [' ', '\t', '\r', '\n', ','] := by
  simp [isSeparator, or_assoc]

theorem skipIgnored_outside (c : Char) (rest : List Char) :
    skipIgnored none (c :: rest) =
      if c = '#' then skipIgnored (some (c :: rest)) rest
      else if isSeparator c then skipIgnored none rest
      else c :: rest :=
  skipIgnored.eq_def none (c :: rest)

theorem skipIgnored_inside (start : List Char) (c : Char) (rest : List Char) :
    skipIgnored (some start) (c :: rest) =
      if c = '\n' then skipIgnored none rest
      else if c = '\r' then
        match rest with
        | '\n' :: after => skipIgnored none after
        | _ => start
      else skipIgnored (some start) rest :=
  skipIgnored.eq_def (some start) (c :: rest)

theorem skipIgnored_inLine {body text start : List Char} (inLine : ∀ c ∈ body, c ≠ '\r' ∧ c ≠ '\n') :
    skipIgnored (some start) (body ++ text) = skipIgnored (some start) text := by
  induction body with
  | nil => rfl
  | cons c rest ih =>
    obtain ⟨notReturn, notFeed⟩ := inLine c (by simp)
    rw [List.cons_append, skipIgnored_inside, if_neg notFeed, if_neg notReturn]
    exact ih fun other later => inLine other (List.mem_cons_of_mem _ later)

theorem ignored_separator {c : Char} {text : List Char}
    (separates : c ∈ [' ', '\t', '\r', '\n', ',']) : ignored (c :: text) = ignored text := by
  have notNumber : c ≠ '#' := by
    rintro rfl
    exact absurd separates (by decide)
  rw [ignored, skipIgnored_outside, if_neg notNumber, if_pos (isSeparator_iff.mpr separates)]
  rfl

theorem skipIgnored_lineEnd {text start : List Char} (ends : LineEnd text) :
    skipIgnored (some start) text = ignored text := by
  cases ends with
  | text => rfl
  | feed =>
    rw [skipIgnored_inside, if_pos rfl, ignored_separator (by simp)]
    rfl
  | carriage =>
    rw [skipIgnored_inside, if_neg (by decide), if_pos rfl, ignored_separator (by simp),
      ignored_separator (by simp)]
    rfl

theorem ignored_eq {text rest : List Char} (skipped : Ignorable text rest) :
    ignored text = ignored rest := by
  induction skipped with
  | none => rfl
  | separator separates more ih => rw [ignored_separator separates, ih]
  | comment inLine ends more ih =>
    rw [ignored, skipIgnored_outside, if_pos rfl, skipIgnored_inLine inLine,
      skipIgnored_lineEnd ends, ih]

-- `body` is what was read of the comment so far.
theorem ignorable_skipIgnored (text : List Char) :
    Ignorable text (ignored text) ∧
      ∀ body, (∀ c ∈ body, c ≠ '\r' ∧ c ≠ '\n') →
        Ignorable ('#' :: (body ++ text)) (skipIgnored (some ('#' :: (body ++ text))) text) := by
  induction text with
  | nil =>
    refine ⟨.none, fun body inLine => ?_⟩
    exact .comment inLine .text .none
  | cons c rest ih =>
    constructor
    · rw [ignored, skipIgnored_outside]
      split
      · rename_i isNumber
        subst isNumber
        exact ih.2 [] (by simp)
      · split
        · rename_i separates
          exact .separator (isSeparator_iff.mp separates) ih.1
        · exact .none
    · intro body inLine
      rw [skipIgnored_inside]
      split
      · rename_i isFeed
        subst isFeed
        exact .comment inLine .feed (.separator (by simp) ih.1)
      · rename_i notFeed
        split
        · rename_i isReturn
          subst isReturn
          split
          · rename_i after
            have more := ih.1
            rw [ignored_separator (by simp)] at more
            exact .comment inLine .carriage (.separator (by simp) more)
          · exact .none
        · rename_i notReturn
          have longer := ih.2 (body ++ [c]) ?_
          · simpa using longer
          · intro d member
            rcases List.mem_append.mp member with early | last
            · exact inLine d early
            · rw [List.mem_singleton.mp last]
              exact ⟨notReturn, notFeed⟩

theorem ignorable_ignored (text : List Char) : Ignorable text (ignored text) :=
  (ignorable_skipIgnored text).1

theorem ignored_token {c : Char} {rest : List Char}
    (token : c ∉ [' ', '\t', '\r', '\n', ',', '#']) : ignored (c :: rest) = c :: rest := by
  have notNumber : c ≠ '#' := by
    rintro rfl
    exact token (by decide)
  have notSeparator : ¬ isSeparator c = true := by
    rw [isSeparator_iff]
    intro separates
    exact token (List.mem_append_left ['#'] separates)
  rw [ignored, skipIgnored_outside, if_neg notNumber, if_neg notSeparator]

theorem ignored_to_token {c : Char} {text rest : List Char} (skipped : Ignorable text (c :: rest))
    (token : c ∉ [' ', '\t', '\r', '\n', ',', '#']) : ignored text = c :: rest :=
  (ignored_eq skipped).trans (ignored_token token)

theorem letter_token {c : Char} (letter : isLetter c = true) :
    c ∉ [' ', '\t', '\r', '\n', ',', '#'] := by
  intro member
  simp only [List.mem_cons, List.not_mem_nil, or_false] at member
  rcases member with rfl | rfl | rfl | rfl | rfl | rfl <;> exact absurd letter (by decide)

theorem name?_cons (c : Char) (rest : List Char) :
    name? (c :: rest) =
      if isLetter c then some (c :: rest.takeWhile isNameChar, rest.dropWhile isNameChar)
      else none := rfl

theorem name?_iff {text name rest : List Char} :
    name? text = some (name, rest) ↔ NameAt text name rest := by
  constructor
  · intro found
    cases text with
    | nil => cases found
    | cons c after =>
      rw [name?_cons] at found
      split at found
      · rename_i letter
        cases found
        have run : NameAt (c :: (after.takeWhile isNameChar ++ after.dropWhile isNameChar))
            (c :: after.takeWhile isNameChar) (after.dropWhile isNameChar) := by
          refine .run letter (fun d member => ?_) (fun d first => ?_)
          · exact List.all_eq_true.mp List.all_takeWhile d member
          · have stops := List.head?_dropWhile_not isNameChar after
            rw [Option.mem_def.mp first] at stops
            simpa using stops
        rwa [List.takeWhile_append_dropWhile] at run
      · cases found
  · intro run
    cases run with
    | @run first more rest letter others longest =>
      have nothing : rest.takeWhile isNameChar = [] ∧ rest.dropWhile isNameChar = rest := by
        cases rest with
        | nil => exact ⟨rfl, rfl⟩
        | cons c after => simp [longest c (by simp)]
      rw [name?_cons, if_pos letter, List.takeWhile_append_of_pos others,
        List.dropWhile_append_of_pos others, nothing.1, nothing.2, List.append_nil]

theorem name?_letter {text name rest : List Char} (found : NameAt text name rest) :
    ∃ c more, text = c :: more ∧ isLetter c = true := by
  cases found with
  | run letter others longest => exact ⟨_, _, rfl, letter⟩

theorem ignored_to_name {text start name rest : List Char} (skipped : Ignorable text start)
    (found : NameAt start name rest) : ignored text = start := by
  obtain ⟨c, more, same, letter⟩ := name?_letter found
  subst same
  exact ignored_to_token skipped (letter_token letter)

theorem Ignorable.shorter {text rest : List Char} (skipped : Ignorable text rest) :
    rest.length ≤ text.length := by
  induction skipped with
  | none => exact Nat.le_refl _
  | separator separates more ih => exact Nat.le_succ_of_le ih
  | comment inLine ends more ih =>
    rw [List.length_cons, List.length_append]
    omega

theorem NameAt.shorter {text name rest : List Char} (found : NameAt text name rest) :
    rest.length < text.length := by
  cases found with
  | run letter others longest =>
    rw [List.length_cons, List.length_append]
    omega

theorem keep_whole {front text inside rest : List Char} {closed : Option (List Char × List Char)}
    (deeper : ∀ {inside rest}, closed = some (inside, rest) → inside ++ rest = text)
    (kept : closeGroup.keep front closed = some (inside, rest)) :
    inside ++ rest = front ++ text := by
  cases closed with
  | none => cases kept
  | some pair =>
    cases kept
    rw [List.append_assoc, deeper rfl]

theorem closeGroup_whole {place : Place} {depth : Nat} {text inside rest : List Char}
    (closed : closeGroup place depth text = some (inside, rest)) : inside ++ rest = text := by
  fun_induction closeGroup place depth text generalizing inside rest with
  | case1 => cases closed
  | case12 =>
    cases closed
    rfl
  | _ =>
    rename_i deeper
    exact keep_whole deeper closed

theorem group_closed {text inside rest : List Char} (closed : group text = .closed inside rest) :
    inside ++ rest = text ∧ ∃ more, inside = '(' :: more := by
  unfold group at closed
  split at closed
  · split at closed
    · rename_i more after found
      cases closed
      exact ⟨by rw [List.cons_append, closeGroup_whole found], more, rfl⟩
    · cases closed
  · cases closed

theorem group_absent {text : List Char} (other : text.head? ≠ some '(') : group text = .absent := by
  unfold group
  split
  · exact absurd rfl other
  · rfl

end SchemaSampler.Query
