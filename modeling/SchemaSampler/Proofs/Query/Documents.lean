import SchemaSampler.Proofs.Query.Recognition

namespace SchemaSampler.Query

def pastName (text : List Char) : List Char :=
  match name? (ignored text) with
  | some (_, rest) => rest
  | none => text

theorem pastName_sound (text : List Char) : OptionalNameAt text (pastName text) := by
  unfold pastName
  split
  · rename_i name rest named
    exact .present (ignorable_ignored text) (name?_iff.mp named)
  · exact .absent

theorem pastName_complete {text rest : List Char} (name : OptionalNameAt text rest)
    (noLetter : ∀ c ∈ (ignored rest).head?, isLetter c = false) : pastName text = rest := by
  unfold pastName
  cases name with
  | absent =>
    split
    · rename_i name rest named
      obtain ⟨c, more, same, letter⟩ := name?_letter (name?_iff.mp named)
      have refused := noLetter c (by rw [same]; rfl)
      rw [letter] at refused
      cases refused
    · rfl
  | present skipped name => rw [ignored_to_name skipped name, name?_iff.mpr name]

theorem skipHeader_eq (text : List Char) :
    skipHeader text = skipGroup (pastName text) >>= fun rest => skipDirectives rest.length rest :=
  rfl

theorem skipHeader_sound {text rest : List Char} (read : skipHeader text = .ok rest) :
    HeaderAt (keyword ++ text) rest := by
  rw [skipHeader_eq] at read
  obtain ⟨afterArguments, skipped, directed⟩ := Outcome.bind_ok.mp read
  exact .present (pastName_sound text) (skipGroup_sound skipped) (skipDirectives_sound directed)

theorem skipHeader_complete {text afterName afterArguments rest inside : List Char}
    (name : OptionalNameAt text afterName) (arguments : ArgumentsAt afterName afterArguments)
    (directives : DirectivesAt afterArguments rest) (follow : ignored rest = '{' :: inside) :
    skipHeader text = .ok rest := by
  have onDirectives : (ignored afterArguments).head? = some '@' ∨
      (ignored afterArguments).head? = some '{' := by
    rcases directives.next with sign | same
    · exact .inl sign
    · right
      rw [same, follow]
      rfl
  have onArguments : ∀ c ∈ (ignored afterName).head?, isLetter c = false := by
    rcases arguments.next with sign | same
    · rw [sign]
      simp [isLetter]
    · rw [same]
      rcases onDirectives with sign | brace
      · rw [sign]
        simp [isLetter]
      · rw [brace]
        simp [isLetter]
  have noGroup : (ignored afterArguments).head? ≠ some '(' := by
    rcases onDirectives with sign | brace
    · rw [sign]
      decide
    · rw [brace]
      decide
  rw [skipHeader_eq, pastName_complete name onArguments, skipGroup_complete arguments noGroup,
    Outcome.ok_bind]
  refine skipDirectives_complete directives (Nat.le_refl _) ?_ ?_
  · rw [follow]
    simp
  · rw [follow]
    simp

def pastHeader (text : List Char) : Except Fault (List Char) :=
  if keyword.isPrefixOf text then skipHeader (text.drop keyword.length) else .ok text

def readSet (text : List Char) : Except Fault (List Selection × List Char) :=
  match ignored text with
  | '{' :: inside => do
    let (found, rest) ← selections (inside.length + 1) inside
    return (found, ignored rest)
  | other => fault .expectedBrace other

theorem operation_eq (text : List Char) : operation text = pastHeader text >>= readSet := by
  unfold operation pastHeader
  split <;> rfl

theorem pastHeader_sound {text rest : List Char} (read : pastHeader text = .ok rest) :
    HeaderAt text rest := by
  unfold pastHeader at read
  split at read
  · rename_i begins
    obtain ⟨more, same⟩ := List.isPrefixOf_iff_prefix.mp begins
    rw [← same, List.drop_left] at read
    rw [← same]
    exact skipHeader_sound read
  · cases read
    exact .absent

theorem ignored_ignored (text : List Char) : ignored (ignored text) = ignored text :=
  (ignored_eq (ignorable_ignored text)).symm

-- Without a header what is ignored before the selections may already be ignored before it.
theorem pastHeader_complete {text rest inside : List Char} (header : HeaderAt text rest)
    (follow : ignored rest = '{' :: inside) :
    ∃ past, pastHeader (ignored text) = .ok past ∧ ignored past = '{' :: inside := by
  cases header with
  | absent =>
    refine ⟨ignored text, ?_, ?_⟩
    · rw [follow]
      rfl
    · rw [ignored_ignored, follow]
  | @present text _ _ _ name arguments directives =>
    have begins : keyword.isPrefixOf ("query".toList ++ text) = true :=
      List.isPrefixOf_iff_prefix.mpr (List.prefix_append keyword text)
    have starts : ignored ("query".toList ++ text) = "query".toList ++ text :=
      ignored_token (by decide)
    refine ⟨rest, ?_, follow⟩
    unfold pastHeader
    rw [starts, if_pos begins]
    exact skipHeader_complete name arguments directives follow

theorem operation_sound {text left : List Char} {found : List Selection}
    (read : operation text = .ok (found, left)) :
    ∃ afterHeader body rest, HeaderAt text afterHeader ∧ Ignorable afterHeader body ∧
      SetAt body found rest ∧ left = ignored rest := by
  rw [operation_eq] at read
  obtain ⟨afterHeader, headed, read⟩ := Outcome.bind_ok.mp read
  unfold readSet at read
  split at read
  · rename_i inside sign
    obtain ⟨⟨members, rest⟩, inner, read⟩ := Outcome.bind_ok.mp read
    cases read
    obtain ⟨last, several, closes⟩ := (selections_sound _).2 inner
    have between := ignorable_ignored afterHeader
    rw [sign] at between
    exact ⟨afterHeader, _, rest, pastHeader_sound headed, between, .braces several closes, rfl⟩
  · cases read

theorem operation_complete {text afterHeader body rest : List Char} {found : List Selection}
    (header : HeaderAt text afterHeader) (between : Ignorable afterHeader body)
    (set : SetAt body found rest) : operation (ignored text) = .ok (found, ignored rest) := by
  obtain @⟨inside, _, closing, _, members, closes⟩ := set
  have follow : ignored afterHeader = '{' :: inside := ignored_to_token between (by decide)
  have read := (selections_complete (inside.length + 1)).2 members closes (Nat.lt_succ_self _)
  obtain ⟨past, headed, opens⟩ := pastHeader_complete header follow
  rw [operation_eq, headed, Outcome.ok_bind]
  unfold readSet
  simp only [opens, read, Outcome.ok_bind]
  rfl

theorem not_refused {c : Char} {more : List Char} (other : c = '{' ∨ c = 'q') :
    (refusedKeywords.find? fun keyword => keyword.toList.isPrefixOf (c :: more)) = none := by
  rcases other with rfl | rfl <;> rfl

-- A document starts with the keyword or with a brace, and neither is ignored.
theorem HeaderAt.starts {text rest inside : List Char} (header : HeaderAt text rest)
    (follow : ignored rest = '{' :: inside) :
    ∃ c more, ignored text = c :: more ∧ (c = '{' ∨ c = 'q') := by
  cases header with
  | absent => exact ⟨'{', inside, follow, .inl rfl⟩
  | present name arguments directives =>
    exact ⟨'q', _, ignored_token (by decide), .inr rfl⟩

theorem parseChars_sound {text : List Char} {found : List Selection}
    (read : parseChars text = .ok found) : Document text found := by
  unfold parseChars at read
  dsimp only at read
  split at read
  · cases read
  · split at read
    · cases read
    · split at read
      · cases read
      · rename_i trees left result
        split at read
        · rename_i nothing
          cases read
          obtain ⟨afterHeader, body, rest, header, between, set, same⟩ := operation_sound result
          have after := ignorable_ignored rest
          rw [← same, List.isEmpty_iff.mp nothing] at after
          exact .operation (ignorable_ignored text) header between set after
        · split at read <;> cases read

theorem parseChars_complete {text : List Char} {found : List Selection}
    (document : Document text found) : parseChars text = .ok found := by
  obtain ⟨before, header, between, set, after⟩ := document
  rename_i start afterHeader body rest
  obtain ⟨inside, brace⟩ := set.starts
  have follow : ignored afterHeader = '{' :: inside := by
    rw [brace] at between
    exact ignored_to_token between (by decide)
  obtain ⟨c, more, starts, first⟩ := header.starts follow
  have result : operation (c :: more) = .ok (found, []) := by
    have read := operation_complete header between set
    rwa [starts, ignored_eq after] at read
  unfold parseChars
  simp only [ignored_eq before, starts, not_refused first, result]
  rfl

theorem parse_ok_iff (text : String) (found : List Selection) :
    parse text = .ok found ↔ Document text.toList found :=
  ⟨parseChars_sound, parseChars_complete⟩

end SchemaSampler.Query
