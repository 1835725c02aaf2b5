import SchemaSampler.Proofs.Query.Lexical
import SchemaSampler.Proofs.Outcome

namespace SchemaSampler.Query

theorem skipGroup_sound {text rest : List Char} (skipped : skipGroup text = .ok rest) :
    ArgumentsAt text rest := by
  unfold skipGroup at skipped
  split at skipped
  · cases skipped
    exact .absent
  · cases skipped
  · rename_i inside after delimited
    cases skipped
    exact .present (ignorable_ignored text) delimited

theorem ArgumentsAt.next {text rest : List Char} (arguments : ArgumentsAt text rest) :
    (ignored text).head? = some '(' ∨ text = rest := by
  cases arguments with
  | absent => exact .inr rfl
  | present skipped delimited =>
    obtain ⟨whole, more, opens⟩ := group_closed delimited
    subst whole opens
    rw [ignored_to_token skipped (by decide)]
    exact .inl rfl

-- Where arguments are absent the text must not go on with a group.
theorem skipGroup_complete {text rest : List Char} (arguments : ArgumentsAt text rest)
    (follow : (ignored rest).head? ≠ some '(') : skipGroup text = .ok rest := by
  unfold skipGroup
  cases arguments with
  | absent => rw [group_absent follow]
  | present skipped delimited =>
    obtain ⟨whole, more, opens⟩ := group_closed delimited
    subst whole opens
    rw [List.cons_append] at skipped delimited
    rw [ignored_to_token skipped (by decide), delimited]

theorem skipDirectives_sound {steps : Nat} {text rest : List Char}
    (skipped : skipDirectives steps text = .ok rest) : DirectivesAt text rest := by
  induction steps generalizing text with
  | zero =>
    cases skipped
    exact .none
  | succ steps ih =>
    unfold skipDirectives at skipped
    split at skipped
    · rename_i start sign
      split at skipped
      · cases skipped
      · rename_i name after named
        obtain ⟨next, arguments, others⟩ := Outcome.bind_ok.mp skipped
        have before := ignorable_ignored text
        rw [sign] at before
        exact .more before (name?_iff.mp named) (skipGroup_sound arguments) (ih others)
    · cases skipped
      exact .none

theorem DirectivesAt.next {text rest : List Char} (directives : DirectivesAt text rest) :
    (ignored text).head? = some '@' ∨ text = rest := by
  cases directives with
  | none => exact .inr rfl
  | more skipped name arguments others =>
    rw [ignored_to_token skipped (by decide)]
    exact .inl rfl

theorem ArgumentsAt.shorter {text rest : List Char} (arguments : ArgumentsAt text rest) :
    rest.length ≤ text.length := by
  cases arguments with
  | absent => exact Nat.le_refl _
  | present skipped delimited =>
    have before := skipped.shorter
    rw [← (group_closed delimited).1, List.length_append] at before
    omega

theorem DirectivesAt.shorter {text rest : List Char} (directives : DirectivesAt text rest) :
    rest.length ≤ text.length := by
  induction directives with
  | none => exact Nat.le_refl _
  | more skipped name arguments others ih =>
    have before := skipped.shorter
    have named := name.shorter
    have after := arguments.shorter
    rw [List.length_cons] at before
    omega

theorem SecondNameAt.shorter {text rest : List Char} {found : Option (List Char)}
    (second : SecondNameAt text found rest) : rest.length ≤ text.length := by
  cases second with
  | absent => exact Nat.le_refl _
  | present skipped between name =>
    have before := skipped.shorter
    have inner := between.shorter
    have named := name.shorter
    rw [List.length_cons] at before
    omega

theorem HeadAt.shorter {text first rest : List Char} {second : Option (List Char)}
    (head : HeadAt text first second rest) : rest.length < text.length := by
  cases head with
  | head name second arguments directives =>
    have named := name.shorter
    have aliased := second.shorter
    have skipped := arguments.shorter
    have directed := directives.shorter
    omega

mutual

theorem SelectionAt.shorter {text rest : List Char} {tree : Selection} :
    SelectionAt text tree rest → rest.length < text.length
  | .leaf head => head.shorter
  | .nested head skipped set => by
    have before := head.shorter
    have between := skipped.shorter
    have inner := set.shorter
    omega

theorem SetAt.shorter {text rest : List Char} {trees : List Selection} :
    SetAt text trees rest → rest.length < text.length
  | .braces members skipped => by
    have inner := members.shorter
    have closing := skipped.shorter
    rw [List.length_cons] at closing ⊢
    omega

theorem SelectionsAt.shorter {text rest : List Char} {trees : List Selection} :
    SelectionsAt text trees rest → rest.length ≤ text.length
  | .none => Nat.le_refl _
  | .more skipped one later => by
    have before := skipped.shorter
    have inner := one.shorter
    have others := later.shorter
    omega

end

theorem skipDirectives_complete {steps : Nat} {text rest : List Char}
    (directives : DirectivesAt text rest) (enough : text.length ≤ steps)
    (noSign : (ignored rest).head? ≠ some '@') (noGroup : (ignored rest).head? ≠ some '(') :
    skipDirectives steps text = .ok rest := by
  induction directives generalizing steps with
  | none =>
    cases steps with
    | zero => rfl
    | succ steps =>
      unfold skipDirectives
      split
      · rename_i start sign
        rw [sign] at noSign
        exact absurd rfl noSign
      · rfl
  | @more text start found after next rest skipped name arguments others ih =>
    have before := skipped.shorter
    have named := name.shorter
    have between := arguments.shorter
    rw [List.length_cons] at before
    obtain ⟨steps, rfl⟩ := Nat.exists_eq_add_of_lt (show 0 < steps by omega)
    have followed : (ignored next).head? ≠ some '(' := by
      rcases others.next with sign | same
      · rw [sign]
        decide
      · rw [same]
        exact noGroup
    simp only [Nat.zero_add, skipDirectives, ignored_to_token skipped (by decide),
      name?_iff.mpr name, skipGroup_complete arguments followed]
    exact ih (by omega) noSign noGroup

theorem secondName_sound {text rest : List Char} {found : Option (List Char)}
    (read : secondName text = .ok (found, rest)) : SecondNameAt text found rest := by
  unfold secondName at read
  split at read
  · rename_i colon sign
    split at read
    · rename_i second after named
      cases read
      have before := ignorable_ignored text
      rw [sign] at before
      exact .present before (ignorable_ignored colon) (name?_iff.mp named)
    · cases read
  · cases read
    exact .absent

theorem secondName_complete {text rest : List Char} {found : Option (List Char)}
    (second : SecondNameAt text found rest) (noColon : (ignored rest).head? ≠ some ':') :
    secondName text = .ok (found, rest) := by
  unfold secondName
  cases second with
  | absent =>
    split
    · rename_i colon sign
      rw [sign] at noColon
      exact absurd rfl noColon
    · rfl
  | present skipped between name =>
    simp only [ignored_to_token skipped (by decide), ignored_to_name between name,
      name?_iff.mpr name]

def SelectionSound (steps : Nat) : Prop :=
  ∀ {text tree rest}, selection steps text = .ok (tree, rest) → SelectionAt text tree rest

def SelectionsSound (steps : Nat) : Prop :=
  ∀ {text trees rest}, selections steps text = .ok (trees, rest) →
    ∃ after, SelectionsAt text trees after ∧ Ignorable after ('}' :: rest)

theorem selection_sound {steps : Nat} (several : SelectionsSound steps) :
    SelectionSound (steps + 1) := by
  intro text tree rest read
  unfold selection at read
  split at read
  · cases read
  · rename_i first afterName named
    obtain ⟨⟨second, afterSecond⟩, aliased, read⟩ := Outcome.bind_ok.mp read
    obtain ⟨afterArguments, skipped, read⟩ := Outcome.bind_ok.mp read
    obtain ⟨afterDirectives, directed, read⟩ := Outcome.bind_ok.mp read
    have head : HeadAt text first second afterDirectives :=
      .head (name?_iff.mp named) (secondName_sound aliased) (skipGroup_sound skipped)
        (skipDirectives_sound directed)
    dsimp only at read
    split at read
    · rename_i inside sign
      obtain ⟨⟨nested, after⟩, inner, read⟩ := Outcome.bind_ok.mp read
      cases read
      obtain ⟨last, members, closes⟩ := several inner
      have before := ignorable_ignored afterDirectives
      rw [sign] at before
      have made := SelectionAt.nested head before (.braces members closes)
      cases second <;> exact made
    · cases read
      have made := SelectionAt.leaf head
      cases second <;> exact made

theorem members_sound {steps : Nat} (one : SelectionSound steps)
    (several : SelectionsSound steps) : SelectionsSound (steps + 1) := by
  intro text trees rest read
  unfold selections at read
  split at read
  · rename_i after sign
    cases read
    have before := ignorable_ignored text
    rw [sign] at before
    exact ⟨text, .none, before⟩
  · cases read
  · obtain ⟨⟨first, after⟩, here, read⟩ := Outcome.bind_ok.mp read
    obtain ⟨⟨others, last⟩, there, read⟩ := Outcome.bind_ok.mp read
    cases read
    obtain ⟨closing, later, closes⟩ := several there
    exact ⟨closing, .more (ignorable_ignored text) (one here) later, closes⟩

-- The steps only bound the nesting, so that whatever is read is in the grammar.
theorem selections_sound (steps : Nat) : SelectionSound steps ∧ SelectionsSound steps := by
  induction steps with
  | zero =>
    constructor
    · intro text tree rest read
      cases read
    · intro text trees rest read
      cases read
  | succ steps ih => exact ⟨selection_sound ih.2, members_sound ih.1 ih.2⟩

theorem HeadAt.read {steps : Nat} {text first rest : List Char} {second : Option (List Char)}
    (head : HeadAt text first second rest) (enough : text.length ≤ steps + 1)
    (noColon : (ignored rest).head? ≠ some ':') (noGroup : (ignored rest).head? ≠ some '(')
    (noSign : (ignored rest).head? ≠ some '@') :
    ∃ afterName afterSecond afterArguments, name? text = some (first, afterName) ∧
      secondName afterName = .ok (second, afterSecond) ∧
      skipGroup afterSecond = .ok afterArguments ∧
      skipDirectives steps afterArguments = .ok rest := by
  cases head with
  | @head afterName _ afterSecond afterArguments _ name aliased arguments directives =>
    have named := name.shorter
    have shorter := aliased.shorter
    have smaller := arguments.shorter
    have onDirectives : ∀ c, c ≠ '@' → (ignored rest).head? ≠ some c →
        (ignored afterArguments).head? ≠ some c := by
      intro c other follow
      rcases directives.next with sign | same
      · rw [sign]
        simpa using fun equal => other equal.symm
      · rw [same]
        exact follow
    have onArguments : (ignored afterSecond).head? ≠ some ':' := by
      rcases arguments.next with sign | same
      · rw [sign]
        decide
      · rw [same]
        exact onDirectives ':' (by decide) noColon
    refine ⟨afterName, afterSecond, afterArguments, name?_iff.mpr name, ?_, ?_, ?_⟩
    · exact secondName_complete aliased onArguments
    · exact skipGroup_complete arguments (onDirectives '(' (by decide) noGroup)
    · exact skipDirectives_complete directives (by omega) noSign noGroup

theorem HeadAt.starts {text first rest : List Char} {second : Option (List Char)}
    (head : HeadAt text first second rest) :
    ∃ c more, text = c :: more ∧ isLetter c = true := by
  cases head with
  | head name _ _ _ => exact name?_letter name

theorem SelectionAt.starts {text rest : List Char} {tree : Selection}
    (selected : SelectionAt text tree rest) : ∃ c more, text = c :: more ∧ isLetter c = true := by
  cases selected with
  | leaf head => exact head.starts
  | nested head _ _ => exact head.starts

theorem SetAt.starts {text rest : List Char} {trees : List Selection} (set : SetAt text trees rest) :
    ∃ inside, text = '{' :: inside := by
  cases set with
  | braces members skipped => exact ⟨_, rfl⟩

def InsideBraces (text : List Char) : Prop :=
  ∃ c more, ignored text = c :: more ∧ (c = '}' ∨ isLetter c = true)

theorem SelectionsAt.next {text after rest : List Char} {trees : List Selection}
    (members : SelectionsAt text trees after) (closes : Ignorable after ('}' :: rest)) :
    InsideBraces text := by
  cases members with
  | none => exact ⟨'}', rest, ignored_to_token closes (by decide), .inl rfl⟩
  | more skipped one later =>
    obtain ⟨c, more, same, letter⟩ := one.starts
    subst same
    exact ⟨c, more, ignored_to_token skipped (letter_token letter), .inr letter⟩

theorem InsideBraces.head_ne {c : Char} {text : List Char} (follow : InsideBraces text)
    (notBrace : c ≠ '}') (notLetter : isLetter c = false) : (ignored text).head? ≠ some c := by
  obtain ⟨d, more, same, brace | letter⟩ := follow
  · subst brace
    rw [same]
    simpa using fun equal => notBrace equal.symm
  · rw [same]
    rintro equal
    cases equal
    rw [letter] at notLetter
    cases notLetter

def SelectionComplete (steps : Nat) : Prop :=
  ∀ {text tree rest}, SelectionAt text tree rest → text.length ≤ steps → InsideBraces rest →
    selection steps text = .ok (tree, rest)

def SelectionsComplete (steps : Nat) : Prop :=
  ∀ {text trees after rest}, SelectionsAt text trees after → Ignorable after ('}' :: rest) →
    text.length < steps → selections steps text = .ok (trees, rest)

def Ended (rest : List Char) : Prop := ∀ c ∈ [':', '(', '@', '{'], (ignored rest).head? ≠ some c

theorem InsideBraces.ended {text : List Char} (follow : InsideBraces text) : Ended text := by
  intro c sign
  simp only [List.mem_cons, List.not_mem_nil, or_false] at sign
  rcases sign with rfl | rfl | rfl | rfl <;> exact follow.head_ne (by decide) (by decide)

theorem HeadAt.opens {steps : Nat} {text first rest inside : List Char} {second : Option (List Char)}
    (head : HeadAt text first second rest) (enough : text.length ≤ steps + 1)
    (sign : ignored rest = '{' :: inside) :
    selection (steps + 1) text = selections steps inside >>= fun (nested, after) =>
      pure (selectionOf first second (some nested), after) := by
  have follows : ∀ c, c ≠ '{' → (ignored rest).head? ≠ some c := by
    intro c other
    rw [sign]
    simpa using fun equal => other equal.symm
  obtain ⟨_, _, _, named, aliased, skipped, directed⟩ := head.read enough
    (follows ':' (by decide)) (follows '(' (by decide)) (follows '@' (by decide))
  simp only [selection, named, aliased, skipped, directed, Outcome.ok_bind, sign]
  cases second <;> rfl

theorem SelectionAt.read {steps : Nat} {text rest : List Char} {tree : Selection}
    (selected : SelectionAt text tree rest) (several : SelectionsComplete steps)
    (enough : text.length ≤ steps + 1) (ended : Ended rest) :
    selection (steps + 1) text = .ok (tree, rest) := by
  cases selected with
  | @leaf _ first second _ head =>
    obtain ⟨_, _, _, named, aliased, skipped, directed⟩ := head.read enough
      (ended _ (by simp)) (ended _ (by simp)) (ended _ (by simp))
    have noSet : (ignored rest).head? ≠ some '{' := ended _ (by simp)
    simp only [selection, named, aliased, skipped, directed, Outcome.ok_bind]
    split
    · rename_i inside sign
      rw [sign] at noSet
      exact absurd rfl noSet
    · cases second <;> rfl
  | @nested _ first second afterHead start trees _ head skipped set =>
    obtain @⟨inside, _, closing, _, members, closes⟩ := set
    have shorter := head.shorter
    have opening := skipped.shorter
    rw [List.length_cons] at opening
    have nested := several members closes (by omega)
    rw [head.opens enough (ignored_to_token skipped (by decide)), nested, Outcome.ok_bind]
    rfl

theorem selection_complete {steps : Nat} (several : SelectionsComplete steps) :
    SelectionComplete (steps + 1) :=
  fun selected enough follow => selected.read several enough follow.ended

theorem selections_letter {steps : Nat} {text more : List Char} {c : Char}
    (sign : ignored text = c :: more) (letter : isLetter c = true) :
    selections (steps + 1) text = selection steps (c :: more) >>= fun (first, rest) =>
      selections steps rest >>= fun (others, rest) => pure (first :: others, rest) := by
  conv => lhs; unfold selections
  rw [sign]
  split
  · rename_i same
    cases same
    exact absurd letter (by decide)
  · rename_i same
    cases same
    exact absurd letter (by decide)
  · rfl

theorem members_complete {steps : Nat} (one : SelectionComplete steps)
    (several : SelectionsComplete steps) : SelectionsComplete (steps + 1) := by
  intro text trees after rest members closes enough
  cases members with
  | none => simp only [selections, ignored_to_token closes (by decide)]
  | @more _ start first afterFirst others _ skipped selected later =>
    obtain ⟨c, more, rfl, letter⟩ := selected.starts
    have before := skipped.shorter
    have shorter := selected.shorter
    have here := one selected (by omega) (later.next closes)
    have there := several later closes (by omega)
    rw [selections_letter (ignored_to_token skipped (letter_token letter)) letter, here,
      Outcome.ok_bind]
    dsimp only
    rw [there]
    rfl

-- The length of the text is steps enough.
theorem selections_complete (steps : Nat) : SelectionComplete steps ∧ SelectionsComplete steps := by
  induction steps with
  | zero =>
    constructor
    · intro text tree rest selected enough
      have some := selected.shorter
      omega
    · intro text trees after rest _ _ enough
      omega
  | succ steps ih => exact ⟨selection_complete ih.2, members_complete ih.1 ih.2⟩

end SchemaSampler.Query
