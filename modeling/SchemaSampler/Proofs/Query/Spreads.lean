import SchemaSampler.Proofs.Query.Refusals

namespace SchemaSampler.Query

inductive PlaceIn : List Char → List Char → Prop where
  | here (skipped : Ignorable text rest) : PlaceIn text rest
  | after (skipped : Ignorable text start) (one : SelectionAt start tree next)
      (later : PlaceIn next rest) : PlaceIn text rest
  | within (skipped : Ignorable text start) (head : HeadAt start first second afterHead)
      (opens : Ignorable afterHead ('{' :: nested)) (inner : PlaceIn nested rest) :
      PlaceIn text rest

inductive SelectionPlace : List Char → List Char → Prop where
  | operation (before : Ignorable text start) (header : HeaderAt start afterHeader)
      (opens : Ignorable afterHeader ('{' :: inside)) (place : PlaceIn inside rest) :
      SelectionPlace text rest

-- The closing brace is there because a name or comment ends only where something else comes.
def AwaitsSelection (front : List Char) : Prop := SelectionPlace (front ++ ['}']) ['}']

theorem PlaceIn.moved : Movable PlaceIn := by
  intro left other text rest changedRest place replaced
  induction place with
  | here skipped =>
    obtain ⟨changed, replaced, skipped⟩ := Ignorable.moved skipped replaced
    exact ⟨changed, replaced, .here skipped⟩
  | after skipped one later ih =>
    obtain ⟨_, replaced, later⟩ := ih replaced
    obtain ⟨_, replaced, one⟩ := one.moved replaced
    obtain ⟨changed, replaced, skipped⟩ := Ignorable.moved skipped replaced
    exact ⟨changed, replaced, .after skipped one later⟩
  | within skipped head opens inner ih =>
    obtain ⟨_, replaced, inner⟩ := ih replaced
    obtain ⟨_, replaced, opens⟩ := Ignorable.moved opens (replaced.append ['{'])
    obtain ⟨_, replaced, head⟩ := HeadAt.moved _ _ head replaced
    obtain ⟨changed, replaced, skipped⟩ := Ignorable.moved skipped replaced
    exact ⟨changed, replaced, .within skipped head opens inner⟩

theorem SelectionPlace.moved : Movable SelectionPlace := by
  intro left other text rest changedRest place replaced
  cases place with
  | operation before header opens place =>
    obtain ⟨_, replaced, place⟩ := PlaceIn.moved place replaced
    obtain ⟨_, replaced, opens⟩ := Ignorable.moved opens (replaced.append ['{'])
    obtain ⟨_, replaced, header⟩ := HeaderAt.moved header replaced
    obtain ⟨changed, replaced, before⟩ := Ignorable.moved before replaced
    exact ⟨changed, replaced, .operation before header opens place⟩

theorem AwaitsSelection.place {front rest : List Char} (awaits : AwaitsSelection front)
    (apart : ∀ c ∈ rest.head?, isNameChar c = false) : SelectionPlace (front ++ rest) rest := by
  have fits : Fits ['}'] rest := by
    refine ⟨fun c first letter => ?_, fun ends => (by cases ends), fun feeds => (by cases feeds)⟩
    rw [apart c first] at letter
    cases letter
  obtain ⟨changed, ⟨⟨before, same, rfl⟩, _⟩, place⟩ := SelectionPlace.moved awaits (.here fits)
  rw [List.append_cancel_right same]
  exact place

section

variable {steps : Nat} {text next rest : List Char}

theorem PlaceIn.ended (place : PlaceIn text ('.' :: rest)) : Ended text := by
  have next : ∃ c more, ignored text = c :: more ∧ (c = '.' ∨ isLetter c = true) := by
    cases place with
    | here skipped => exact ⟨'.', rest, ignored_to_token skipped (by decide), .inl rfl⟩
    | after skipped one later =>
      obtain ⟨c, more, rfl, letter⟩ := one.starts
      exact ⟨c, more, ignored_to_token skipped (letter_token letter), .inr letter⟩
    | within skipped head opens inner =>
      obtain ⟨c, more, rfl, letter⟩ := head.starts
      exact ⟨c, more, ignored_to_token skipped (letter_token letter), .inr letter⟩
  obtain ⟨c, more, same, first⟩ := next
  rintro d sign equal
  rw [same] at equal
  cases equal
  rcases first with rfl | letter
  · exact absurd sign (by decide)
  · simp only [List.mem_cons, List.not_mem_nil, or_false] at sign
    rcases sign with rfl | rfl | rfl | rfl <;> exact absurd letter (by decide)

theorem dots_refused (sign : ignored text = '.' :: '.' :: '.' :: rest) :
    selections (steps + 1) text = .error ⟨.spread, '.' :: '.' :: '.' :: rest⟩ := by
  unfold selections
  rw [sign]
  rfl

-- What is complete before the place is read, and what is open there is entered.
theorem PlaceIn.refused {dots : List Char} (place : PlaceIn text dots)
    (spread : dots = '.' :: '.' :: '.' :: rest) (enough : text.length < steps) :
    selections steps text = .error ⟨.spread, dots⟩ := by
  induction place generalizing steps with
  | here skipped =>
    subst spread
    obtain ⟨steps, rfl⟩ : ∃ fewer, steps = fewer + 1 := ⟨steps - 1, by omega⟩
    exact dots_refused (ignored_to_token skipped (by decide))
  | after skipped one later ih =>
    have before := skipped.shorter
    have shorter := one.shorter
    obtain ⟨steps, rfl⟩ : ∃ fewer, steps = fewer + 2 := ⟨steps - 2, by omega⟩
    obtain ⟨c, more, rfl, letter⟩ := one.starts
    subst spread
    have read := one.read (selections_complete steps).2 (by omega) later.ended
    rw [selections_letter (ignored_to_token skipped (letter_token letter)) letter, read,
      Outcome.ok_bind]
    dsimp only
    rw [ih rfl (by omega)]
    rfl
  | within skipped head opens inner ih =>
    have before := skipped.shorter
    have shorter := head.shorter
    have opening := opens.shorter
    rw [List.length_cons] at opening
    obtain ⟨steps, rfl⟩ : ∃ fewer, steps = fewer + 2 := ⟨steps - 2, by omega⟩
    obtain ⟨c, more, rfl, letter⟩ := head.starts
    have nested : selection (steps + 1) (c :: more) = _ :=
      head.opens (by omega) (ignored_to_token opens (by decide))
    rw [ih spread (by omega)] at nested
    rw [selections_letter (ignored_to_token skipped (letter_token letter)) letter, nested]
    rfl

theorem SelectionPlace.refused (place : SelectionPlace text ('.' :: '.' :: '.' :: rest)) :
    parseChars text = .error (.unsupportedFragment (offset text ('.' :: '.' :: '.' :: rest))) := by
  obtain ⟨before, header, opens, inner⟩ := place
  rename_i start afterHeader inside
  have follow : ignored afterHeader = '{' :: inside := ignored_to_token opens (by decide)
  obtain ⟨c, more, starts, first⟩ := header.starts follow
  obtain ⟨past, headed, brace⟩ := pastHeader_complete header follow
  have refused : selections (inside.length + 1) inside = _ := inner.refused rfl (Nat.lt_succ_self _)
  have result : Query.operation (c :: more) = .error ⟨.spread, '.' :: '.' :: '.' :: rest⟩ := by
    rw [← starts, operation_eq, headed, Outcome.ok_bind]
    simp only [readSet, brace, refused]
    rfl
  unfold parseChars
  simp only [ignored_eq before, starts, not_refused first, result]
  rfl

end

theorem dots_refused_there (front rest : String) (awaits : AwaitsSelection front.toList) :
    parse (front ++ "..." ++ rest) = .error (.unsupportedFragment front.utf8ByteSize) := by
  have place : SelectionPlace (front.toList ++ '.' :: '.' :: '.' :: rest.toList) _ :=
    awaits.place (by simp [isNameChar, isLetter])
  have whole : (front ++ "..." ++ rest).toList = front.toList ++ '.' :: '.' :: '.' :: rest.toList := by
    simp
  rw [parse, whole, place.refused, offset_append, ← utf8ByteSize_ofList, String.ofList_toList]

theorem nested_awaits : AwaitsSelection "query\x7ba(x:\"é\")@b\x7bc,".toList := by
  have head : HeadAt "a(x:\"é\")@b\x7bc,\x7d".toList ['a'] none "\x7bc,\x7d".toList :=
    .head (name?_iff.mp rfl) .absent (skipGroup_sound rfl) (@skipDirectives_sound 1 _ _ rfl)
  have leaf : HeadAt "c,\x7d".toList ['c'] none ",\x7d".toList :=
    .head (name?_iff.mp rfl) .absent .absent .none
  have inner : PlaceIn "c,\x7d".toList ['\x7d'] :=
    .after .none (.leaf leaf) (.here (ignorable_ignored ",\x7d".toList))
  exact .operation .none (.present .absent .absent .none) .none (.within .none head .none inner)

theorem nested_dots_refused :
    AwaitsSelection "query\x7ba(x:\"é\")@b\x7bc,".toList ∧
      parse ("query\x7ba(x:\"é\")@b\x7bc," ++ "..." ++ " on D \x7b (") =
        .error (.unsupportedFragment 20) :=
  ⟨nested_awaits, dots_refused_there _ _ nested_awaits⟩

end SchemaSampler.Query
