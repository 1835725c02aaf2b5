import SchemaSampler.Proofs.Query.Documents

-- A number is only taken from one that is no smaller, a text is only cut between two characters,
-- and each turn of a loop has to take something off the text.

namespace SchemaSampler.Query

namespace Checked

abbrev Run (α : Type) := ExceptT Fault Option α

def failed : Run α := ExceptT.mk none

def minus (larger smaller : Nat) : Option Nat :=
  if smaller ≤ larger then some (larger - smaller) else none

def cut : Nat → List Char → Option (List Char × List Char)
  | 0, text => some ([], text)
  | _ + 1, [] => none
  | place + 1, c :: rest => do
    let (front, after) ← cut (← minus (place + 1) c.utf8Size) rest
    return (c :: front, after)

def isBlank (c : Char) : Bool := c = ' ' || c = '\t' || c = '\r' || c = '\n'

-- There is none if a CR without LF comes first.
def line : List Char → Option (List Char)
  | [] => some []
  | '\r' :: '\n' :: rest => some ('\r' :: '\n' :: rest)
  | c :: rest => if c = '\n' then some (c :: rest) else if c = '\r' then none else line rest

def ignoredOnce : List Char → Option (List Char)
  | [] => none
  | c :: rest =>
    if isBlank c then some (rest.dropWhile isBlank)
    else if c = ',' then some rest
    else if c = '#' then line rest
    else none

def ignored (text : List Char) : Option (List Char) :=
  match ignoredOnce text with
  | none => some text
  | some rest => if rest.length < text.length then ignored rest else none
termination_by text.length

def quotes : List Char := ['"', '"', '"']

-- `skip` more characters belong to what was seen last.
def scan (input : List Char) (byte : Nat) (place : Place) (depth skip : Nat) :
    List Char → Option Group
  | [] => some .unclosed
  | c :: later =>
    let next := byte + c.utf8Size
    match skip with
    | skip + 1 => scan input next place depth skip later
    | 0 => do
      let (_, rest) ← cut byte input
      match place with
      | .string true => scan input next (.string false) depth 0 later
      | .string false =>
        if c = '\\' then scan input next (.string true) depth 0 later
        else if c = '"' then scan input next .plain depth 0 later
        else scan input next (.string false) depth 0 later
      | .block =>
        if ('\\' :: quotes).isPrefixOf rest then scan input next .block depth 3 later
        else if quotes.isPrefixOf rest then scan input next .plain depth 2 later
        else scan input next .block depth 0 later
      | .plain =>
        if c = '"' then
          if quotes.isPrefixOf rest then scan input next .block depth 2 later
          else scan input next (.string false) depth 0 later
        else if c = '(' then scan input next .plain (depth + 1) 0 later
        else if c = ')' then do
          let depth ← minus depth 1
          if depth = 0 then
            let (group, after) ← cut next input
            return .closed group after
          else scan input next .plain depth 0 later
        else scan input next .plain depth 0 later

def group (text : List Char) : Option Group :=
  if ['('].isPrefixOf text then scan text 0 .plain 0 0 text else some .absent

def skipGroup (text : List Char) : Run (List Char) := do
  let start ← ignored text
  match ← group start with
  | .absent => return text
  | .unclosed => throw ⟨.unclosedGroup, start⟩
  | .closed _ rest => return rest

def after? (sign : Char) : List Char → Option (List Char)
  | [] => none
  | c :: rest => if c = sign then some rest else none

def skipDirectives (text : List Char) : Run (List Char) := do
  match after? '@' (← ignored text) with
  | none => return text
  | some rest =>
    match name? rest with
    | none => throw ⟨.expectedName, rest⟩
    | some (_, rest) => do
      let rest ← skipGroup rest
      if rest.length < text.length then skipDirectives rest else failed
termination_by text.length

def secondName (text : List Char) : Run (Option (List Char) × List Char) := do
  match after? ':' (← ignored text) with
  | none => return (none, text)
  | some rest => do
    let rest ← ignored rest
    match name? rest with
    | some (second, rest) => return (some second, rest)
    | none => throw ⟨.expectedName, rest⟩

def dots : List Char := ['.', '.', '.']

mutual

def selection (text : List Char) : Run (Selection × List Char) := do
  match name? text with
  | none => throw ⟨.expectedName, text⟩
  | some (first, rest) => do
    let (second, rest) ← secondName rest
    let rest ← skipGroup rest
    let rest ← skipDirectives rest
    match after? '{' (← ignored rest) with
    | none => return (selectionOf first second none, rest)
    | some inside =>
      if inside.length < text.length then do
        let (nested, rest) ← selections inside
        return (selectionOf first second (some nested), rest)
      else failed
termination_by 2 * text.length

def selections (text : List Char) : Run (List Selection × List Char) := do
  let start ← ignored text
  match after? '}' start with
  | some rest => return ([], rest)
  | none =>
    if dots.isPrefixOf start then throw ⟨.spread, start⟩
    else if start.length ≤ text.length then do
      let (first, rest) ← selection start
      if rest.length < text.length then do
        let (others, rest) ← selections rest
        return (first :: others, rest)
      else failed
    else failed
termination_by 2 * text.length + 1

end

def pastName (text : List Char) : Option (List Char) := do
  match name? (← ignored text) with
  | some (_, rest) => return rest
  | none => return text

def skipHeader (text : List Char) : Run (List Char) := do
  let rest ← skipGroup (← pastName text)
  skipDirectives rest

def pastHeader (text : List Char) : Run (List Char) :=
  if keyword.isPrefixOf text then skipHeader (text.drop keyword.length) else pure text

def readSet (text : List Char) : Run (List Selection × List Char) := do
  let start ← ignored text
  match after? '{' start with
  | none => throw ⟨.expectedBrace, start⟩
  | some inside => do
    let (found, rest) ← selections inside
    return (found, ← ignored rest)

def operation (text : List Char) : Run (List Selection × List Char) := do
  readSet (← pastHeader text)

section

variable {α β : Type}

def ended (outcome : Except Fault α) : Run α := ExceptT.mk (some outcome)

theorem bind_ended {outcome : Except Fault α} {next : α → Run β} {after : α → Except Fault β}
    (each : ∀ value, outcome = .ok value → next value = ended (after value)) :
    (ended outcome >>= next) = ended (outcome >>= after) := by
  cases outcome with
  | error refusal => rfl
  | ok value => exact each value rfl

theorem some_bind (value : α) (next : α → Run β) :
    ((liftM (some value) : Run α) >>= next) = next value := rfl

end

theorem byteLength_append (front rest : List Char) :
    byteLength (front ++ rest) = byteLength front + byteLength rest := by
  induction front with
  | nil => simp [byteLength]
  | cons c front ih => simp [byteLength, ih, Nat.add_assoc]

theorem minus_add (number more : Nat) : minus (number + more) number = some more := by
  simp [minus]

theorem cut_eq {text front rest : List Char} (whole : text = front ++ rest) :
    cut (byteLength front) text = some (front, rest) := by
  subst whole
  induction front with
  | nil => simp [cut, byteLength]
  | cons c front ih =>
    have positive := c.utf8Size_pos
    obtain ⟨before, same⟩ := Nat.exists_eq_add_of_lt (show 0 < byteLength (c :: front) by
      rw [byteLength]; omega)
    rw [Nat.zero_add] at same
    have less : minus (before + 1) c.utf8Size = some (byteLength front) := by
      rw [← same, byteLength, minus_add]
    rw [same, List.cons_append]
    simp [cut, less, ih]

theorem line_some {text rest : List Char} (found : line text = some rest) :
    ∃ body, text = body ++ rest ∧ (∀ c ∈ body, c ≠ '\r' ∧ c ≠ '\n') ∧ LineEnd rest := by
  fun_induction line text with
  | case1 =>
    cases found
    exact ⟨[], rfl, by simp, .text⟩
  | case2 =>
    cases found
    exact ⟨[], rfl, by simp, .carriage⟩
  | case3 =>
    cases found
    exact ⟨[], rfl, by simp, .feed⟩
  | case4 => cases found
  | case5 c later _ notFeed notReturn ih =>
    obtain ⟨body, rfl, inLine, ends⟩ := ih found
    exact ⟨c :: body, rfl, List.forall_mem_cons.mpr ⟨⟨notReturn, notFeed⟩, inLine⟩, ends⟩

theorem line_none {text start : List Char} (nowhere : line text = none) :
    skipIgnored (some start) text = start := by
  fun_induction line text with
  | case1 => cases nowhere
  | case2 => cases nowhere
  | case3 => cases nowhere
  | case4 later alone =>
    rw [skipIgnored_inside, if_neg (by decide), if_pos rfl]
    split
    · exact absurd rfl (alone _ rfl)
    · rfl
  | case5 c later _ notFeed notReturn ih =>
    rw [skipIgnored_inside, if_neg notFeed, if_neg notReturn]
    exact ih nowhere

theorem isSeparator_eq (c : Char) : isSeparator c = (isBlank c || c = ',') := rfl

theorem ignorable_blanks (text : List Char) : Ignorable text (text.dropWhile isBlank) := by
  induction text with
  | nil => exact .none
  | cons c rest ih =>
    cases blank : isBlank c with
    | false => simp [blank, Ignorable.none]
    | true =>
      rw [List.dropWhile_cons_of_pos blank]
      refine .separator (isSeparator_iff.mp ?_) ih
      rw [isSeparator_eq, blank, Bool.true_or]

theorem ignoredOnce_some {text rest : List Char} (once : ignoredOnce text = some rest) :
    Ignorable text rest ∧ rest.length < text.length := by
  unfold ignoredOnce at once
  split at once
  · cases once
  · rename_i c after
    split at once
    · rename_i blank
      cases once
      have whole := ignorable_blanks (c :: after)
      rw [List.dropWhile_cons_of_pos blank] at whole
      have shorter := (ignorable_blanks after).shorter
      rw [List.length_cons]
      exact ⟨whole, by omega⟩
    · split at once
      · rename_i comma
        cases once
        subst comma
        exact ⟨.separator (by simp) .none, by simp⟩
      · split at once
        · rename_i number
          obtain ⟨body, rfl, inLine, ends⟩ := line_some once
          subst number
          refine ⟨.comment inLine ends .none, ?_⟩
          rw [List.length_cons, List.length_append]
          omega
        · cases once

theorem ignoredOnce_none {text : List Char} (never : ignoredOnce text = none) :
    Query.ignored text = text := by
  unfold ignoredOnce at never
  split at never
  · rfl
  · rename_i c rest
    split at never
    · cases never
    · rename_i notBlank
      split at never
      · cases never
      · rename_i notComma
        split at never
        · rename_i number
          subst number
          rw [Query.ignored, skipIgnored_outside, if_pos rfl, line_none never]
        · rename_i notNumber
          have notSeparator : ¬ isSeparator c = true := by
            simp [isSeparator_eq, notBlank, notComma]
          rw [Query.ignored, skipIgnored_outside, if_neg notNumber, if_neg notSeparator]

theorem ignored_eq (text : List Char) : ignored text = some (Query.ignored text) := by
  fun_induction ignored text with
  | case1 text never => rw [ignoredOnce_none never]
  | case2 text rest once shorter ih => rw [ih, Query.ignored_eq (ignoredOnce_some once).1]
  | case3 text rest once longer => exact absurd (ignoredOnce_some once).2 longer

def found (front : List Char) : Option (List Char × List Char) → Group
  | some (inside, rest) => .closed (front ++ inside) rest
  | none => .unclosed

theorem found_keep (front piece : List Char) (closed : Option (List Char × List Char)) :
    found front (closeGroup.keep piece closed) = found (front ++ piece) closed := by
  cases closed with
  | none => rfl
  | some pair => simp [found, closeGroup.keep]

theorem scan_eq {input front text : List Char} {place : Place} {depth : Nat} (opened : 0 < depth)
    (whole : input = front ++ text) : scan input (byteLength front) place depth 0 text =
      some (found front (closeGroup place depth text)) := by
  fun_induction closeGroup place depth text generalizing front with
  | case1 => rfl
  | case8 depth c rest notEscaped notQuotes ih =>
    have here := cut_eq whole
    have noEscape : ¬ ('\\' = c ∧ quotes <+: rest) := by
      rintro ⟨rfl, more, same⟩
      exact notEscaped more rfl same.symm
    have noQuotes : ¬ quotes <+: c :: rest := by
      rintro ⟨more, same⟩
      cases same
      exact notQuotes more rfl rfl
    rw [found_keep, ← ih opened (by simp [whole])]
    simp [scan, here, byteLength_append, byteLength, noEscape, noQuotes]
  | case10 depth rest notQuotes ih =>
    have here := cut_eq whole
    have noQuotes : ¬ quotes <+: '"' :: rest := by
      rintro ⟨more, same⟩
      cases same
      exact notQuotes more rfl rfl
    rw [found_keep, ← ih opened (by simp [whole])]
    simp [scan, here, byteLength_append, byteLength, noQuotes]
  | case11 depth rest _ _ ih =>
    have here := cut_eq whole
    rw [found_keep, ← ih (Nat.succ_pos depth) (by simp [whole])]
    simp [scan, here, byteLength_append, byteLength]
  | case12 depth rest last =>
    obtain rfl : depth = 1 := by omega
    have here := cut_eq whole
    have after := cut_eq (whole.trans (List.append_cons front ')' rest))
    simp only [byteLength_append, byteLength, Nat.add_zero] at after
    simp [scan, here, minus, after, found]
  | case13 depth rest notLast _ _ _ ih =>
    have here := cut_eq whole
    rw [found_keep, ← ih (by omega) (by simp [whole])]
    have less : minus depth 1 = some (depth - 1) := if_pos opened
    have stillOpen : depth - 1 ≠ 0 := by omega
    simp [scan, here, byteLength_append, byteLength, less, stillOpen]
  | _ =>
    rename_i ih
    have here := cut_eq whole
    rw [found_keep, ← ih opened (by simp [whole])]
    clear whole ih
    simp [scan, byteLength_append, byteLength, quotes, Nat.add_assoc, *]

theorem group_open (rest : List Char) :
    Query.group ('(' :: rest) = found ['('] (closeGroup .plain 1 rest) := rfl

theorem group_eq (text : List Char) : group text = some (Query.group text) := by
  cases text with
  | nil => rfl
  | cons c rest =>
    by_cases opens : c = '('
    · subst opens
      have first : group ('(' :: rest) = scan ('(' :: rest) (byteLength ['(']) .plain 1 0 rest := by
        simp [group, scan, cut, byteLength]
      rw [first, group_open]
      exact scan_eq Nat.one_pos rfl
    · rw [group_absent (by simpa using opens)]
      simp [group, Ne.symm opens]

theorem after?_some {sign : Char} {text rest : List Char} (found : after? sign text = some rest) :
    text = sign :: rest := by
  unfold after? at found
  split at found
  · cases found
  · split at found
    · rename_i same
      cases found
      rw [same]
    · cases found

theorem after?_none {sign : Char} {text : List Char} (nowhere : after? sign text = none)
    (rest : List Char) : text ≠ sign :: rest := by
  rintro rfl
  simp [after?] at nowhere

theorem skipGroup_eq (text : List Char) : skipGroup text = ended (Query.skipGroup text) := by
  unfold skipGroup Query.skipGroup
  rw [ignored_eq, some_bind, group_eq, some_bind]
  cases Query.group (Query.ignored text) <;> rfl

theorem skipDirectives_eq {steps : Nat} {text : List Char} (enough : text.length ≤ steps) :
    skipDirectives text = ended (Query.skipDirectives steps text) := by
  induction steps generalizing text with
  | zero =>
    obtain rfl := List.eq_nil_of_length_eq_zero (Nat.le_zero.mp enough)
    unfold skipDirectives
    rw [ignored_eq, some_bind]
    rfl
  | succ steps ih =>
    have before := (ignorable_ignored text).shorter
    unfold skipDirectives Query.skipDirectives
    rw [ignored_eq, some_bind]
    cases found : after? '@' (Query.ignored text) with
    | none =>
      dsimp only
      split
      · rename_i start sign
        exact absurd sign (after?_none found start)
      · rfl
    | some start =>
      have sign := after?_some found
      rw [sign, List.length_cons] at before
      simp only [sign]
      cases named : name? start with
      | none => rfl
      | some read =>
        have after := (name?_iff.mp named).shorter
        dsimp only
        rw [skipGroup_eq]
        refine bind_ended ?_
        intro next skipped
        have shorter := (skipGroup_sound skipped).shorter
        rw [if_pos (by omega), ih (by omega)]

theorem secondName_eq (text : List Char) : secondName text = ended (Query.secondName text) := by
  unfold secondName Query.secondName
  rw [ignored_eq, some_bind]
  cases found : after? ':' (Query.ignored text) with
  | none =>
    dsimp only
    split
    · rename_i rest sign
      exact absurd sign (after?_none found rest)
    · rfl
  | some rest =>
    simp only [after?_some found, ignored_eq, some_bind]
    cases name? (Query.ignored rest) <;> rfl

-- Steps for the whole text are enough, so that the bound never stops the parser.
def SelectionEnds (steps : Nat) : Prop :=
  ∀ text, text.length ≤ steps → selection text = ended (Query.selection steps text)

def SelectionsEnd (steps : Nat) : Prop :=
  ∀ text, text.length < steps → selections text = ended (Query.selections steps text)

theorem selection_ends {steps : Nat} (several : SelectionsEnd steps) :
    SelectionEnds (steps + 1) := by
  intro text enough
  unfold selection Query.selection
  cases named : name? text with
  | none => rfl
  | some read =>
    have afterName := (name?_iff.mp named).shorter
    dsimp only
    rw [secondName_eq]
    refine bind_ended ?_
    rintro ⟨second, rest⟩ aliased
    have afterSecond := (secondName_sound aliased).shorter
    dsimp only
    rw [skipGroup_eq]
    refine bind_ended ?_
    intro rest skipped
    have afterArguments := (skipGroup_sound skipped).shorter
    rw [@skipDirectives_eq steps _ (by omega)]
    refine bind_ended ?_
    intro rest directed
    have afterDirectives := (skipDirectives_sound directed).shorter
    have before := (ignorable_ignored rest).shorter
    rw [ignored_eq, some_bind]
    cases found : after? '{' (Query.ignored rest) with
    | none =>
      dsimp only
      split
      · rename_i inside sign
        exact absurd sign (after?_none found inside)
      · cases second <;> rfl
    | some inside =>
      have sign := after?_some found
      rw [sign, List.length_cons] at before
      simp only [sign]
      rw [if_pos (by omega), several inside (by omega)]
      refine bind_ended ?_
      rintro ⟨nested, after⟩ _
      cases second <;> rfl

theorem members_end {steps : Nat} (one : SelectionEnds steps) (several : SelectionsEnd steps) :
    SelectionsEnd (steps + 1) := by
  intro text enough
  have before := (ignorable_ignored text).shorter
  unfold selections Query.selections
  rw [ignored_eq, some_bind]
  cases found : after? '}' (Query.ignored text) with
  | some rest =>
    simp only [after?_some found]
    rfl
  | none =>
    by_cases spread : dots.isPrefixOf (Query.ignored text) = true
    · obtain ⟨rest, same⟩ := List.isPrefixOf_iff_prefix.mp spread
      rw [← same]
      rfl
    · simp only [if_neg spread, if_pos before]
      split
      · rename_i rest sign
        exact absurd sign (after?_none found rest)
      · rename_i rest sign
        exact absurd (List.isPrefixOf_iff_prefix.mpr ⟨rest, sign.symm⟩) spread
      · rw [one _ (by omega)]
        refine bind_ended ?_
        rintro ⟨first, rest⟩ here
        have shorter := ((selections_sound steps).1 here).shorter
        dsimp only
        rw [if_pos (by omega), several rest (by omega)]
        refine bind_ended ?_
        rintro ⟨others, last⟩ _
        rfl

theorem selections_end (steps : Nat) : SelectionEnds steps ∧ SelectionsEnd steps := by
  induction steps with
  | zero =>
    constructor
    · intro text enough
      obtain rfl := List.eq_nil_of_length_eq_zero (Nat.le_zero.mp enough)
      unfold selection
      rfl
    · intro text enough
      omega
  | succ steps ih => exact ⟨selection_ends ih.2, members_end ih.1 ih.2⟩

theorem pastName_eq (text : List Char) : pastName text = some (Query.pastName text) := by
  unfold pastName Query.pastName
  rw [ignored_eq]
  cases named : name? (Query.ignored text) <;> simp [named]

theorem skipHeader_eq (text : List Char) : skipHeader text = ended (Query.skipHeader text) := by
  unfold skipHeader
  rw [pastName_eq, some_bind, skipGroup_eq, Query.skipHeader_eq]
  exact bind_ended fun rest _ => skipDirectives_eq (Nat.le_refl _)

theorem pastHeader_eq (text : List Char) : pastHeader text = ended (Query.pastHeader text) := by
  unfold pastHeader Query.pastHeader
  split
  · exact skipHeader_eq _
  · rfl

theorem readSet_eq (text : List Char) : readSet text = ended (Query.readSet text) := by
  unfold readSet Query.readSet
  rw [ignored_eq, some_bind]
  cases found : after? '{' (Query.ignored text) with
  | none =>
    dsimp only
    split
    · rename_i inside sign
      exact absurd sign (after?_none found inside)
    · rfl
  | some inside =>
    simp only [after?_some found, (selections_end (inside.length + 1)).2 inside (Nat.lt_succ_self _)]
    refine bind_ended ?_
    rintro ⟨members, rest⟩ _
    dsimp only
    rw [ignored_eq]
    rfl

theorem operation_eq (text : List Char) : operation text = ended (Query.operation text) := by
  unfold operation
  rw [pastHeader_eq, Query.operation_eq]
  exact bind_ended fun rest _ => readSet_eq rest

end Checked

end SchemaSampler.Query
