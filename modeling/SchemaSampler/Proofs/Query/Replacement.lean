import SchemaSampler.Proofs.Query.Lexical

-- What was read of a text is read again where the text goes on in another way.

namespace SchemaSampler.Query

-- Where `rest` stands `other` may stand: no name goes on with it that did not go on
-- before, a line that ended there still ends, and no CR loses its LF.
structure Fits (rest other : List Char) : Prop where
  names : ∀ c ∈ other.head?, isNameChar c = true → rest.head? = some c
  ends : LineEnd rest → LineEnd other
  feeds : rest.head? = some '\n' → other.head? = some '\n'

namespace Fits

variable {rest other : List Char}

theorem names_cons (c : Char) :
    ∀ d ∈ (c :: other).head?, isNameChar d = true → (c :: rest).head? = some d := by
  intro d first _
  exact first

theorem cons (c : Char) (fits : Fits rest other) : Fits (c :: rest) (c :: other) := by
  refine ⟨names_cons c, fun ends => ?_, id⟩
  cases ends with
  | feed => exact .feed
  | carriage =>
    have feeds := fits.feeds rfl
    cases other with
    | nil => cases feeds
    | cons d more =>
      cases feeds
      exact .carriage

theorem append (front : List Char) (fits : Fits rest other) :
    Fits (front ++ rest) (front ++ other) := by
  induction front with
  | nil => exact fits
  | cons c front ih => exact ih.cons c

theorem after {c : Char} (notReturn : c ≠ '\r') : Fits (c :: rest) (c :: other) := by
  refine ⟨names_cons c, fun ends => ?_, id⟩
  cases ends with
  | feed => exact .feed
  | carriage => exact absurd rfl notReturn

theorem feed : Fits rest ('\n' :: other) := by
  refine ⟨fun c first letter => ?_, fun _ => .feed, fun _ => rfl⟩
  cases first
  exact absurd letter (by decide)

end Fits

-- `text` ends in `left`, and `changed` is `text` with `other` in its place.
structure Replaced (left other text changed : List Char) : Prop where
  front : ∃ front, text = front ++ left ∧ changed = front ++ other
  fits : Fits text changed

namespace Replaced

variable {left other text changed : List Char}

theorem here (fits : Fits left other) : Replaced left other left other :=
  ⟨⟨[], rfl, rfl⟩, fits⟩

theorem append (front : List Char) (replaced : Replaced left other text changed) :
    Replaced left other (front ++ text) (front ++ changed) := by
  obtain ⟨⟨before, same, changedSame⟩, fits⟩ := replaced
  refine ⟨⟨front ++ before, ?_, ?_⟩, fits.append front⟩
  · rw [same, List.append_assoc]
  · rw [changedSame, List.append_assoc]

theorem after {c : Char} (notReturn : c ≠ '\r') : Replaced left other (c :: left) (c :: other) :=
  ⟨⟨[c], rfl, rfl⟩, .after notReturn⟩

end Replaced

theorem prefix_before {pattern front rest : List Char} {mark : Char} (absent : mark ∉ pattern)
    (begins : pattern <+: front ++ mark :: rest) : pattern <+: front := by
  rcases List.prefix_or_prefix_of_prefix begins (List.prefix_append front _) with short | long
  · exact short
  · obtain ⟨more, rfl⟩ := long
    cases more with
    | nil => simp
    | cons c more =>
      rw [List.prefix_append_right_inj, List.cons_prefix_cons] at begins
      obtain ⟨rfl, _⟩ := begins
      exact absurd (by simp) absent

theorem unmatched {pattern front left other : List Char} (absent : ')' ∉ pattern)
    (differs : ∀ more, front ++ ')' :: left = pattern ++ more → False) (more : List Char) :
    front ++ ')' :: other = pattern ++ more → False := by
  intro begins
  obtain ⟨later, same⟩ := prefix_before absent ⟨more, begins.symm⟩
  refine differs (later ++ ')' :: left) ?_
  rw [← same, List.append_assoc]

theorem keep_some {front inside rest : List Char} {closed : Option (List Char × List Char)}
    (kept : closeGroup.keep front closed = some (inside, rest)) :
    ∃ deeper, closed = some (deeper, rest) ∧ inside = front ++ deeper := by
  cases closed with
  | none => cases kept
  | some pair =>
    cases kept
    exact ⟨_, rfl, rfl⟩

theorem closeGroup_moved {place : Place} {depth : Nat} {text inside rest : List Char}
    (closed : closeGroup place depth text = some (inside, rest)) :
    ∃ front, inside = front ++ [')'] ∧ text = front ++ ')' :: rest ∧
      ∀ other, closeGroup place depth (front ++ ')' :: other) = some (inside, other) := by
  fun_induction closeGroup place depth text generalizing inside rest with
  | case1 => cases closed
  -- Here, and at a single quote, a pattern was looked for in vain. It must not come up with
  -- the other rest.
  | case8 depth c tail notEscaped notQuotes ih =>
    obtain ⟨deeper, found, rfl⟩ := keep_some closed
    obtain ⟨front, rfl, rfl, again⟩ := ih found
    refine ⟨c :: front, rfl, rfl, fun other => ?_⟩
    rw [List.cons_append, closeGroup, again other]
    · rfl
    · intro more same
      exact @unmatched ['"', '"', '"'] front rest other (by decide) (fun _ => notEscaped _ same) more
    · intro more same
      exact @unmatched ['"', '"'] front rest other (by decide) (fun _ => notQuotes _ same) more
  | case10 depth tail notQuotes ih =>
    obtain ⟨deeper, found, rfl⟩ := keep_some closed
    obtain ⟨front, rfl, rfl, again⟩ := ih found
    refine ⟨'"' :: front, rfl, rfl, fun other => ?_⟩
    rw [List.cons_append, closeGroup, if_pos rfl, again other]
    · rfl
    · intro more same
      exact @unmatched ['"', '"'] front rest other (by decide) (fun _ => notQuotes _ same) more
  | case12 =>
    cases closed
    exact ⟨[], rfl, rfl, fun other => by simp [closeGroup, *]⟩
  | _ =>
    rename_i ih
    obtain ⟨deeper, found, rfl⟩ := keep_some closed
    obtain ⟨front, rfl, rfl, again⟩ := ih found
    refine ⟨_ ++ front, (List.append_assoc _ _ _).symm, rfl, fun other => ?_⟩
    simp [closeGroup, closeGroup.keep, *]

theorem group_moved {text inside rest : List Char} (closed : group text = .closed inside rest)
    (other : List Char) : group (inside ++ other) = .closed inside other := by
  unfold group at closed
  split at closed
  · split at closed
    · rename_i found
      cases closed
      obtain ⟨front, rfl, _, again⟩ := closeGroup_moved found
      simp [group, again other]
    · cases closed
  · cases closed

def Movable (part : List Char → List Char → Prop) : Prop :=
  ∀ {left other text rest changedRest : List Char}, part text rest →
    Replaced left other rest changedRest →
      ∃ changed, Replaced left other text changed ∧ part changed changedRest

theorem Ignorable.moved : Movable Ignorable := by
  intro left other text rest changedRest skipped replaced
  induction skipped with
  | none => exact ⟨changedRest, replaced, .none⟩
  | @separator c _ _ separates more ih =>
    obtain ⟨changed, replaced, more⟩ := ih replaced
    exact ⟨c :: changed, replaced.append [c], .separator separates more⟩
  | @comment body _ _ inLine ends more ih =>
    obtain ⟨changed, replaced, more⟩ := ih replaced
    exact ⟨'#' :: (body ++ changed), replaced.append ('#' :: body),
      .comment inLine (replaced.fits.ends ends) more⟩

theorem NameAt.moved (name : List Char) : Movable fun text rest => NameAt text name rest := by
  intro left other text rest changedRest found replaced
  cases found with
  | @run first more _ letter others longest =>
    refine ⟨first :: (more ++ changedRest), replaced.append (first :: more), ?_⟩
    refine .run letter others fun c next => ?_
    cases goesOn : isNameChar c with
    | false => rfl
    | true => rw [← goesOn, longest c (replaced.fits.names c next goesOn)]

theorem OptionalNameAt.moved : Movable OptionalNameAt := by
  intro left other text rest changedRest name replaced
  cases name with
  | absent => exact ⟨changedRest, replaced, .absent⟩
  | present skipped name =>
    obtain ⟨start, replaced, name⟩ := NameAt.moved _ name replaced
    obtain ⟨changed, replaced, skipped⟩ := Ignorable.moved skipped replaced
    exact ⟨changed, replaced, .present skipped name⟩

theorem ArgumentsAt.moved : Movable ArgumentsAt := by
  intro left other text rest changedRest arguments replaced
  cases arguments with
  | absent => exact ⟨changedRest, replaced, .absent⟩
  | present skipped delimited =>
    obtain ⟨whole, _⟩ := group_closed delimited
    subst whole
    obtain ⟨changed, replaced, skipped⟩ := Ignorable.moved skipped (replaced.append _)
    exact ⟨changed, replaced, .present skipped (group_moved delimited changedRest)⟩

theorem DirectivesAt.moved : Movable DirectivesAt := by
  intro left other text rest changedRest directives replaced
  induction directives with
  | none => exact ⟨changedRest, replaced, .none⟩
  | more skipped name arguments others ih =>
    obtain ⟨_, replaced, others⟩ := ih replaced
    obtain ⟨_, replaced, arguments⟩ := ArgumentsAt.moved arguments replaced
    obtain ⟨_, replaced, name⟩ := NameAt.moved _ name replaced
    obtain ⟨changed, replaced, skipped⟩ := Ignorable.moved skipped (replaced.append ['@'])
    exact ⟨changed, replaced, .more skipped name arguments others⟩

theorem SecondNameAt.moved (found : Option (List Char)) :
    Movable fun text rest => SecondNameAt text found rest := by
  intro left other text rest changedRest second replaced
  cases second with
  | absent => exact ⟨changedRest, replaced, .absent⟩
  | present skipped between name =>
    obtain ⟨_, replaced, name⟩ := NameAt.moved _ name replaced
    obtain ⟨_, replaced, between⟩ := Ignorable.moved between replaced
    obtain ⟨changed, replaced, skipped⟩ := Ignorable.moved skipped (replaced.append [':'])
    exact ⟨changed, replaced, .present skipped between name⟩

theorem HeadAt.moved (first : List Char) (second : Option (List Char)) :
    Movable fun text rest => HeadAt text first second rest := by
  intro left other text rest changedRest head replaced
  cases head with
  | head name second arguments directives =>
    obtain ⟨_, replaced, directives⟩ := DirectivesAt.moved directives replaced
    obtain ⟨_, replaced, arguments⟩ := ArgumentsAt.moved arguments replaced
    obtain ⟨_, replaced, second⟩ := SecondNameAt.moved _ second replaced
    obtain ⟨changed, replaced, name⟩ := NameAt.moved _ name replaced
    exact ⟨changed, replaced, .head name second arguments directives⟩

mutual

theorem SelectionAt.moved {left other text rest changedRest : List Char} {tree : Selection} :
    SelectionAt text tree rest → Replaced left other rest changedRest →
      ∃ changed, Replaced left other text changed ∧ SelectionAt changed tree changedRest
  | .leaf head, replaced => by
    obtain ⟨changed, replaced, head⟩ := HeadAt.moved _ _ head replaced
    exact ⟨changed, replaced, .leaf head⟩
  | .nested head skipped set, replaced => by
    obtain ⟨_, replaced, set⟩ := set.moved replaced
    obtain ⟨_, replaced, skipped⟩ := Ignorable.moved skipped replaced
    obtain ⟨changed, replaced, head⟩ := HeadAt.moved _ _ head replaced
    exact ⟨changed, replaced, .nested head skipped set⟩

theorem SetAt.moved {left other text rest changedRest : List Char} {trees : List Selection} :
    SetAt text trees rest → Replaced left other rest changedRest →
      ∃ changed, Replaced left other text changed ∧ SetAt changed trees changedRest
  | .braces members skipped, replaced => by
    obtain ⟨_, replaced, skipped⟩ := Ignorable.moved skipped (replaced.append ['}'])
    obtain ⟨_, replaced, members⟩ := members.moved replaced
    exact ⟨_, replaced.append ['{'], .braces members skipped⟩

theorem SelectionsAt.moved {left other text rest changedRest : List Char}
    {trees : List Selection} :
    SelectionsAt text trees rest → Replaced left other rest changedRest →
      ∃ changed, Replaced left other text changed ∧ SelectionsAt changed trees changedRest
  | .none, replaced => ⟨changedRest, replaced, .none⟩
  | .more skipped one later, replaced => by
    obtain ⟨_, replaced, later⟩ := later.moved replaced
    obtain ⟨_, replaced, one⟩ := one.moved replaced
    obtain ⟨changed, replaced, skipped⟩ := Ignorable.moved skipped replaced
    exact ⟨changed, replaced, .more skipped one later⟩

end

theorem HeaderAt.moved : Movable HeaderAt := by
  intro left other text rest changedRest header replaced
  cases header with
  | absent => exact ⟨changedRest, replaced, .absent⟩
  | present name arguments directives =>
    obtain ⟨_, replaced, directives⟩ := DirectivesAt.moved directives replaced
    obtain ⟨_, replaced, arguments⟩ := ArgumentsAt.moved arguments replaced
    obtain ⟨_, replaced, name⟩ := OptionalNameAt.moved name replaced
    exact ⟨_, replaced.append "query".toList, .present name arguments directives⟩

end SchemaSampler.Query
