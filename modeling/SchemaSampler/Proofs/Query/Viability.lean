import Mathlib.Logic.Relation
import SchemaSampler.Proofs.Query.Documents
import SchemaSampler.Proofs.Query.Replacement

namespace SchemaSampler.Query

-- The part that was being read when it was refused can be brought to an end: with some
-- text from `close` on in place of what is left, it goes as far as the next line end.
structure Stuck (part : List Char → List Char → Prop) (text : List Char) (refusal : Fault) :
    Prop where
  closes : ∃ close, ∀ rest, ∃ changed,
    Replaced refusal.rest (close ++ '\n' :: rest) text changed ∧ part changed ('\n' :: rest)
  spread : refusal.reason = .spread → ['.', '.', '.'] <+: refusal.rest

namespace Stuck

variable {part whole : List Char → List Char → Prop} {text start : List Char} {refusal : Fault}

theorem within (stuck : Stuck part text refusal)
    (widen : ∀ {other changed rest}, Replaced refusal.rest other text changed →
      part changed ('\n' :: rest) →
        ∃ changed, Replaced refusal.rest other start changed ∧ whole changed ('\n' :: rest)) :
    Stuck whole start refusal := by
  obtain ⟨⟨close, closes⟩, spread⟩ := stuck
  refine ⟨⟨close, fun rest => ?_⟩, spread⟩
  obtain ⟨changed, replaced, ended⟩ := closes rest
  exact widen replaced ended

theorem followed (tail : List Char) (stuck : Stuck part text refusal)
    (widen : ∀ {other changed rest}, Replaced refusal.rest other text changed →
      part changed ('\n' :: (tail ++ '\n' :: rest)) →
        ∃ changed, Replaced refusal.rest other start changed ∧ whole changed ('\n' :: rest)) :
    Stuck whole start refusal := by
  obtain ⟨⟨close, closes⟩, spread⟩ := stuck
  refine ⟨⟨close ++ '\n' :: tail, fun rest => ?_⟩, spread⟩
  obtain ⟨changed, replaced, ended⟩ := closes (tail ++ '\n' :: rest)
  rw [List.append_assoc]
  exact widen replaced ended

end Stuck

theorem Ignorable.feed {text rest : List Char} (skipped : Ignorable text ('\n' :: rest)) :
    Ignorable text rest := by
  generalize same : '\n' :: rest = middle at skipped
  induction skipped with
  | none =>
    subst same
    exact .separator (by simp) .none
  | separator separates more ih => exact .separator separates (ih same)
  | comment inLine ends more ih => exact .comment inLine ends (ih same)

theorem Ignorable.onLine {text left : List Char} (skipped : Ignorable text left)
    (more : List Char) :
    ∃ changed, Replaced left ('\n' :: more) text changed ∧ Ignorable changed ('\n' :: more) :=
  Ignorable.moved skipped (.here .feed)

theorem nameAt_letter (rest : List Char) : NameAt ('x' :: '\n' :: rest) ['x'] ('\n' :: rest) :=
  @NameAt.run 'x' [] ('\n' :: rest) (by decide) (by simp) (by simp [isNameChar, isLetter])

theorem skipGroup_stuck {text : List Char} {refusal : Fault}
    (refused : skipGroup text = .error refusal) : Stuck Ignorable text refusal := by
  unfold skipGroup at refused
  split at refused
  · cases refused
  · cases refused
    refine ⟨⟨[], fun rest => (ignorable_ignored text).onLine rest⟩, fun spread => ?_⟩
    cases spread
  · cases refused

theorem skipDirectives_stuck {steps : Nat} {text : List Char} {refusal : Fault}
    (refused : skipDirectives steps text = .error refusal) :
    Stuck (Relation.Comp DirectivesAt Ignorable) text refusal := by
  induction steps generalizing text with
  | zero => cases refused
  | succ steps ih =>
    unfold skipDirectives at refused
    split at refused
    · rename_i start sign
      have before := ignorable_ignored text
      rw [sign] at before
      split at refused
      · cases refused
        refine ⟨⟨['x'], fun rest => ?_⟩, fun spread => by cases spread⟩
        obtain ⟨changed, replaced, before⟩ := before.moved (.after (by decide))
        exact ⟨changed, replaced, _, .more before (nameAt_letter rest) .absent .none, .none⟩
      · rename_i name after named
        have name := name?_iff.mp named
        rcases Outcome.bind_error.mp refused with refused | ⟨next, skipped, refused⟩
        · refine (skipGroup_stuck refused).within ?_
          intro _ _ _ replaced skipped
          obtain ⟨_, replaced, name⟩ := NameAt.moved _ name replaced
          obtain ⟨changed, replaced, before⟩ := before.moved (replaced.append ['@'])
          exact ⟨changed, replaced, _, .more before name .absent .none, skipped⟩
        · refine (ih refused).within ?_
          rintro _ _ _ replaced ⟨last, others, after⟩
          obtain ⟨_, replaced, arguments⟩ := (skipGroup_sound skipped).moved replaced
          obtain ⟨_, replaced, name⟩ := NameAt.moved _ name replaced
          obtain ⟨changed, replaced, before⟩ := before.moved (replaced.append ['@'])
          exact ⟨changed, replaced, last, .more before name arguments others, after⟩
    · cases refused

theorem secondName_stuck {text : List Char} {refusal : Fault}
    (refused : secondName text = .error refusal) :
    Stuck (fun text rest => ∃ name, SecondNameAt text (some name) rest) text refusal := by
  unfold secondName at refused
  split at refused
  · rename_i colon sign
    have before := ignorable_ignored text
    rw [sign] at before
    split at refused
    · cases refused
    · cases refused
      refine ⟨⟨['\n', 'x'], fun rest => ?_⟩, fun spread => by cases spread⟩
      obtain ⟨_, replaced, between⟩ := (ignorable_ignored colon).onLine ('x' :: '\n' :: rest)
      obtain ⟨changed, replaced, before⟩ := before.moved (replaced.append [':'])
      exact ⟨changed, replaced, _, .present before between.feed (nameAt_letter rest)⟩
  · cases refused

-- A selection can also be refused where it would begin.
def SelectionStuck (steps : Nat) : Prop :=
  ∀ {text refusal}, selection steps text = .error refusal →
    refusal = ⟨.expectedName, text⟩ ∨
      Stuck (Relation.Comp (fun text rest => ∃ tree, SelectionAt text tree rest) Ignorable)
        text refusal

def Inside (text rest : List Char) : Prop :=
  ∃ trees after, SelectionsAt text trees after ∧ Ignorable after ('}' :: rest)

def SelectionsStuck (steps : Nat) : Prop :=
  ∀ {text refusal}, selections steps text = .error refusal → Stuck Inside text refusal

theorem selection_stuck {steps : Nat} (several : SelectionsStuck steps) :
    SelectionStuck (steps + 1) := by
  intro text refusal refused
  unfold selection at refused
  split at refused
  · cases refused
    exact .inl rfl
  · rename_i first afterName named
    right
    have name := name?_iff.mp named
    rcases Outcome.bind_error.mp refused with refused | ⟨⟨other, afterSecond⟩, aliased, refused⟩
    · refine (secondName_stuck refused).within ?_
      rintro _ _ _ replaced ⟨found, second⟩
      obtain ⟨changed, replaced, name⟩ := NameAt.moved _ name replaced
      exact ⟨changed, replaced, _, ⟨_, .leaf (.head name second .absent .none)⟩, .none⟩
    have second := secondName_sound aliased
    rcases Outcome.bind_error.mp refused with refused | ⟨afterArguments, skipped, refused⟩
    · refine (skipGroup_stuck refused).within ?_
      intro _ _ _ replaced skipped
      obtain ⟨_, replaced, second⟩ := SecondNameAt.moved _ second replaced
      obtain ⟨changed, replaced, name⟩ := NameAt.moved _ name replaced
      exact ⟨changed, replaced, _, ⟨_, .leaf (.head name second .absent .none)⟩, skipped⟩
    have arguments := skipGroup_sound skipped
    rcases Outcome.bind_error.mp refused with refused | ⟨afterDirectives, directed, refused⟩
    · refine (skipDirectives_stuck refused).within ?_
      rintro _ _ _ replaced ⟨last, directives, skipped⟩
      obtain ⟨_, replaced, arguments⟩ := arguments.moved replaced
      obtain ⟨_, replaced, second⟩ := SecondNameAt.moved _ second replaced
      obtain ⟨changed, replaced, name⟩ := NameAt.moved _ name replaced
      exact ⟨changed, replaced, last, ⟨_, .leaf (.head name second arguments directives)⟩, skipped⟩
    have head : HeadAt text first other afterDirectives :=
      .head name second arguments (skipDirectives_sound directed)
    dsimp only at refused
    split at refused
    · rename_i inside sign
      have before := ignorable_ignored afterDirectives
      rw [sign] at before
      rcases Outcome.bind_error.mp refused with refused | ⟨_, _, impossible⟩
      · refine (several refused).within ?_
        rintro _ _ _ replaced ⟨trees, after, members, closes⟩
        obtain ⟨_, replaced, before⟩ := before.moved (replaced.append ['{'])
        obtain ⟨changed, replaced, head⟩ := HeadAt.moved _ _ head replaced
        exact ⟨changed, replaced, _, ⟨_, .nested head before (.braces members closes)⟩, .none⟩
      · cases impossible
    · cases refused

theorem brace_stuck {text : List Char} {refusal : Fault} (before : Ignorable text refusal.rest)
    (spread : refusal.reason = .spread → ['.', '.', '.'] <+: refusal.rest) :
    Stuck Inside text refusal := by
  refine ⟨⟨['\n', '}'], fun rest => ?_⟩, spread⟩
  obtain ⟨changed, replaced, before⟩ := before.onLine ('}' :: '\n' :: rest)
  exact ⟨changed, replaced, [], changed, .none, before.feed⟩

theorem members_stuck {steps : Nat} (one : SelectionStuck steps) (several : SelectionsStuck steps) :
    SelectionsStuck (steps + 1) := by
  intro text refusal refused
  have before := ignorable_ignored text
  unfold selections at refused
  split at refused
  · cases refused
  · rename_i rest sign
    cases refused
    rw [sign] at before
    exact brace_stuck before fun _ => ⟨rest, rfl⟩
  · rcases Outcome.bind_error.mp refused with refused | ⟨⟨first, after⟩, here, refused⟩
    · rcases one refused with rfl | stuck
      · exact brace_stuck before fun spread => by cases spread
      · refine stuck.followed ['}'] ?_
        rintro _ _ _ replaced ⟨last, ⟨tree, selected⟩, skipped⟩
        obtain ⟨changed, replaced, before⟩ := before.moved replaced
        exact ⟨changed, replaced, _, last, .more before selected .none, skipped.feed⟩
    · rcases Outcome.bind_error.mp refused with refused | ⟨_, _, impossible⟩
      · refine (several refused).within ?_
        rintro _ _ _ replaced ⟨trees, last, members, closes⟩
        obtain ⟨_, replaced, selected⟩ := ((selections_sound steps).1 here).moved replaced
        obtain ⟨changed, replaced, before⟩ := before.moved replaced
        exact ⟨changed, replaced, _, last, .more before selected members, closes⟩
      · cases impossible

-- This holds for any number of steps, also where they run out.
theorem selections_stuck (steps : Nat) : SelectionStuck steps ∧ SelectionsStuck steps := by
  induction steps with
  | zero =>
    constructor
    · intro text refusal refused
      cases refused
      exact .inl rfl
    · intro text refusal refused
      cases refused
      exact brace_stuck .none fun spread => by cases spread
  | succ steps ih => exact ⟨selection_stuck ih.2, members_stuck ih.1 ih.2⟩

inductive Operation : List Char → List Char → Prop where
  | operation (header : HeaderAt text afterHeader) (between : Ignorable afterHeader body)
      (set : SetAt body found afterSet) (after : Ignorable afterSet rest) : Operation text rest

theorem Operation.moved : Movable Operation := by
  intro left other text rest changedRest operation replaced
  cases operation with
  | operation header between set after =>
    obtain ⟨_, replaced, after⟩ := after.moved replaced
    obtain ⟨_, replaced, set⟩ := set.moved replaced
    obtain ⟨_, replaced, between⟩ := between.moved replaced
    obtain ⟨changed, replaced, header⟩ := header.moved replaced
    exact ⟨changed, replaced, .operation header between set after⟩

theorem skipHeader_stuck {text : List Char} {refusal : Fault}
    (refused : skipHeader text = .error refusal) : Stuck Operation (keyword ++ text) refusal := by
  rw [skipHeader_eq] at refused
  have name := pastName_sound text
  rcases Outcome.bind_error.mp refused with refused | ⟨afterArguments, skipped, refused⟩
  · refine (skipGroup_stuck refused).followed ['{', '}'] ?_
    intro _ _ _ replaced skipped
    obtain ⟨_, replaced, name⟩ := name.moved replaced
    exact ⟨_, replaced.append keyword, .operation (.present name .absent .none) skipped.feed
      (.braces .none .none) .none⟩
  · refine (skipDirectives_stuck refused).followed ['{', '}'] ?_
    rintro _ _ _ replaced ⟨last, directives, after⟩
    obtain ⟨_, replaced, arguments⟩ := (skipGroup_sound skipped).moved replaced
    obtain ⟨_, replaced, name⟩ := name.moved replaced
    exact ⟨_, replaced.append keyword, .operation (.present name arguments directives) after.feed
      (.braces .none .none) .none⟩

theorem readSet_stuck {start text : List Char} {refusal : Fault} (header : HeaderAt start text)
    (refused : readSet text = .error refusal) : Stuck Operation start refusal := by
  have before := ignorable_ignored text
  unfold readSet at refused
  split at refused
  · rename_i inside sign
    rw [sign] at before
    rcases Outcome.bind_error.mp refused with refused | ⟨_, _, impossible⟩
    · refine ((selections_stuck _).2 refused).within ?_
      rintro _ _ _ replaced ⟨trees, last, members, closes⟩
      obtain ⟨_, replaced, before⟩ := before.moved (replaced.append ['{'])
      obtain ⟨changed, replaced, header⟩ := header.moved replaced
      exact ⟨changed, replaced, .operation header before (.braces members closes) .none⟩
    · cases impossible
  · cases refused
    refine ⟨⟨['\n', '{', '}'], fun rest => ?_⟩, fun spread => by cases spread⟩
    obtain ⟨_, replaced, before⟩ := before.onLine ('{' :: '}' :: '\n' :: rest)
    obtain ⟨changed, replaced, header⟩ := header.moved replaced
    exact ⟨changed, replaced, .operation header before.feed (.braces .none .none) .none⟩

theorem operation_stuck {text : List Char} {refusal : Fault}
    (refused : operation text = .error refusal) : Stuck Operation text refusal := by
  rw [operation_eq] at refused
  rcases Outcome.bind_error.mp refused with refused | ⟨afterHeader, headed, refused⟩
  · unfold pastHeader at refused
    split at refused
    · rename_i begins
      obtain ⟨more, rfl⟩ := List.isPrefixOf_iff_prefix.mp begins
      rw [List.drop_left] at refused
      exact skipHeader_stuck refused
    · cases refused
  · exact readSet_stuck (pastHeader_sound headed) refused

end SchemaSampler.Query
