import SchemaSampler.Proofs.Query.Refusals

namespace SchemaSampler.Query

theorem NameAt.whole {text name rest : List Char} (found : NameAt text name rest) :
    text = name ++ rest := by
  cases found
  rfl

-- A pattern of name characters does not reach past the name.
theorem NameAt.begins_iff {text name rest pattern : List Char} (found : NameAt text name rest)
    (letters : ∀ c ∈ pattern, isNameChar c = true) : pattern <+: text ↔ pattern <+: name := by
  constructor
  · intro begins
    cases found with
    | @run first others _ _ _ longest =>
      have inText : first :: others <+: first :: (others ++ rest) := ⟨rest, rfl⟩
      rcases List.prefix_or_prefix_of_prefix begins inText with short | ⟨more, rfl⟩
      · exact short
      · cases more with
        | nil => simp
        | cons c more =>
          rw [← List.cons_append, List.prefix_append_right_inj] at begins
          obtain ⟨tail, same⟩ := begins
          have goesOn := letters c (by simp)
          rw [longest c (by rw [← same]; rfl)] at goesOn
          cases goesOn
  · intro begins
    rw [found.whole]
    exact begins.trans (List.prefix_append name rest)

theorem NameAt.ignored {text name rest : List Char} (found : NameAt text name rest) :
    Query.ignored text = text :=
  ignored_to_name .none found

theorem known_letters {known : String} (member : known ∈ "query" :: refusedKeywords) :
    ∀ c ∈ known.toList, isNameChar c = true := by
  simp only [refusedKeywords, List.mem_cons, List.not_mem_nil, or_false] at member
  rcases member with rfl | rfl | rfl <;> exact List.all_eq_true.mp (by decide)

theorem refused_unique {start : List Char} {kind other : String} (member : kind ∈ refusedKeywords)
    (begins : kind.toList <+: start) (otherMember : other ∈ refusedKeywords)
    (otherBegins : other.toList <+: start) : other = kind := by
  have apart : "mutation".toList <+: start → ¬ "subscription".toList <+: start := by
    rintro ⟨more, rfl⟩ ⟨later, same⟩
    cases same
  simp only [refusedKeywords, List.mem_cons, List.not_mem_nil, or_false] at member otherMember
  rcases member with rfl | rfl <;> rcases otherMember with rfl | rfl
  · rfl
  · exact absurd otherBegins (apart begins)
  · exact absurd begins (apart otherBegins)
  · rfl

theorem find_refused_iff {start : List Char} {kind : String} :
    (refusedKeywords.find? fun keyword => keyword.toList.isPrefixOf start) = some kind ↔
      kind ∈ refusedKeywords ∧ kind.toList <+: start := by
  constructor
  · intro found
    have begins := List.find?_some found
    exact ⟨List.mem_of_find?_eq_some found, List.isPrefixOf_iff_prefix.mp begins⟩
  · rintro ⟨member, begins⟩
    cases found : refusedKeywords.find? fun keyword => keyword.toList.isPrefixOf start with
    | none =>
      have nowhere := List.find?_eq_none.mp found kind member
      exact absurd (List.isPrefixOf_iff_prefix.mpr begins) nowhere
    | some other =>
      have otherBegins := List.find?_some found
      rw [refused_unique member begins (List.mem_of_find?_eq_some found)
        (List.isPrefixOf_iff_prefix.mp otherBegins)]

theorem Fault.error_supported {text : List Char} {refusal : Fault} {kind : String} :
    refusal.error text ≠ .unsupportedOperation kind := by
  obtain ⟨reason, rest⟩ := refusal
  cases reason <;> exact QueryError.noConfusion

theorem parseChars_unsupported_iff {text : List Char} {kind : String} :
    parseChars text = .error (.unsupportedOperation kind) ↔
      kind ∈ refusedKeywords ∧ kind.toList <+: ignored text := by
  rw [← find_refused_iff]
  unfold parseChars
  dsimp only
  by_cases blank : (ignored text).isEmpty = true
  · rw [if_pos blank, List.isEmpty_iff.mp blank]
    constructor <;> intro impossible <;> cases impossible
  · rw [if_neg blank]
    cases found : refusedKeywords.find? fun keyword => keyword.toList.isPrefixOf (ignored text) with
    | some other => simp
    | none =>
      dsimp only
      refine ⟨fun refused => ?_, fun impossible => (by cases impossible)⟩
      exfalso
      split at refused
      · rename_i refusal read
        exact Fault.error_supported (Except.error.inj refused)
      · split at refused
        · cases refused
        · split at refused
          · cases refused
          · exact Fault.error_supported (Except.error.inj refused)

theorem parseChars_ok_iff {text : List Char} {found : List Selection} :
    parseChars text = .ok found ↔ operation (ignored text) = .ok (found, []) := by
  constructor
  · intro read
    obtain ⟨before, header, between, set, after⟩ := parseChars_sound read
    have result := operation_complete header between set
    rwa [← ignored_eq before, ignored_eq after] at result
  · intro read
    obtain ⟨afterHeader, body, rest, header, between, set, nothing⟩ := operation_sound read
    have after := ignorable_ignored rest
    rw [← nothing] at after
    exact parseChars_complete (.operation (ignorable_ignored text) header between set after)

theorem operation_unknown {start word rest : List Char} (first : NameAt start word rest)
    (unknown : ¬ keyword <+: word) : operation start = .error ⟨.expectedBrace, start⟩ := by
  obtain ⟨c, more, same, letter⟩ := name?_letter first
  have noKeyword : keyword.isPrefixOf start = false := by
    rw [Bool.eq_false_iff, ne_eq, List.isPrefixOf_iff_prefix]
    exact mt (first.begins_iff (known_letters (List.mem_cons_self ..))).mp unknown
  rw [operation_eq, pastHeader, noKeyword]
  simp only [Bool.false_eq_true, if_false, Outcome.ok_bind, readSet, first.ignored]
  split
  · cases same
    exact absurd letter (by decide)
  · rfl

section

variable {text : List Char}

theorem ignored_blank (text : List Char) : ignored (' ' :: text) = ignored text :=
  ignored_separator (by simp)

theorem skipDirectives_steps {steps more : Nat} (enough : text.length ≤ steps)
    (alsoEnough : text.length ≤ more) : skipDirectives steps text = skipDirectives more text := by
  have same := (Checked.skipDirectives_eq enough).symm.trans (Checked.skipDirectives_eq alsoEnough)
  exact Option.some.inj same

theorem directives_blank {steps more : Nat} (enough : text.length < steps)
    (alsoEnough : text.length ≤ more) :
    (skipDirectives steps (' ' :: text) >>= readSet) = skipDirectives more text >>= readSet := by
  have blank : readSet (' ' :: text) = readSet text := by
    unfold readSet
    rw [ignored_blank]
  rw [skipDirectives_steps alsoEnough (Nat.le_of_lt enough)]
  obtain ⟨steps, rfl⟩ : ∃ fewer, steps = fewer + 1 := ⟨steps - 1, by omega⟩
  unfold skipDirectives
  rw [ignored_blank]
  split
  · rfl
  · rw [Outcome.ok_bind, Outcome.ok_bind, blank]

theorem header_blank (text : List Char) :
    (skipHeader (' ' :: text) >>= readSet) = skipHeader text >>= readSet := by
  rw [skipHeader_eq, skipHeader_eq]
  unfold pastName
  rw [ignored_blank]
  cases name? (ignored text) with
  | some read => rfl
  | none =>
    unfold skipGroup
    rw [ignored_blank]
    dsimp only
    cases group (ignored text) with
    | absent => exact directives_blank (by simp) (Nat.le_refl _)
    | unclosed => rfl
    | closed found rest => rfl

theorem pastHeader_keyword (text : List Char) : pastHeader (keyword ++ text) = skipHeader text := by
  have begins : keyword.isPrefixOf (keyword ++ text) = true :=
    List.isPrefixOf_iff_prefix.mpr (List.prefix_append keyword text)
  rw [pastHeader, if_pos begins, List.drop_left]

theorem operation_blank (text : List Char) :
    operation (keyword ++ ' ' :: text) = operation (keyword ++ text) := by
  rw [operation_eq, operation_eq, pastHeader_keyword, pastHeader_keyword, header_blank]

end

theorem parseChars_unknown {text word rest : List Char} (first : NameAt (ignored text) word rest)
    (unknown : ∀ known ∈ "query" :: refusedKeywords, ¬ known.toList <+: word) :
    parseChars text =
      .error (.malformed (offset text (ignored text)) .expectedBrace false) := by
  have notRefused : (refusedKeywords.find? fun keyword =>
      keyword.toList.isPrefixOf (ignored text)) = none := by
    rw [List.find?_eq_none]
    intro known member begins
    have known' := List.mem_cons_of_mem "query" member
    refine unknown known known' ((first.begins_iff (known_letters known')).mp ?_)
    exact List.isPrefixOf_iff_prefix.mp begins
  have refused := operation_unknown first (unknown "query" (List.mem_cons_self ..))
  obtain ⟨c, more, same, letter⟩ := name?_letter first
  rw [same] at notRefused refused ⊢
  unfold parseChars
  simp only [same, notRefused, refused]
  rfl

theorem parseChars_fragment {text trailing : List Char} (read : Operation (ignored text) trailing)
    (begins : "fragment".toList <+: trailing) :
    parseChars text = .error (.unsupportedFragment (offset text trailing)) := by
  obtain ⟨header, between, set, after⟩ := read
  rename_i afterHeader body found afterSet
  obtain ⟨inside, brace⟩ := set.starts
  have follow : ignored afterHeader = '{' :: inside := by
    rw [brace] at between
    exact ignored_to_token between (by decide)
  obtain ⟨c, more, starts, first⟩ := header.starts follow
  obtain ⟨tail, rfl⟩ := begins
  have result := operation_complete header between set
  rw [starts, ignored_to_token after (by decide)] at result
  rw [ignored_ignored] at starts
  unfold parseChars
  simp only [starts, not_refused first, result]
  rfl

theorem parseChars_keyword {text more rest : List Char} {found : List Selection}
    (first : NameAt (ignored text) (keyword ++ more) rest) :
    parseChars text = .ok found ↔ parseChars (keyword ++ ' ' :: (more ++ rest)) = .ok found := by
  have starts : ignored (keyword ++ ' ' :: (more ++ rest)) = keyword ++ ' ' :: (more ++ rest) :=
    ignored_token (by decide)
  rw [parseChars_ok_iff, parseChars_ok_iff, starts, operation_blank, first.whole,
    List.append_assoc]

-- Where the name goes on after `query`, the rest of it is the name of the operation. A fragment
-- after an operation is refused as such, but as the first word `fragment` is no keyword.
theorem first_name_decides (text : String) {word rest : List Char}
    (first : NameAt (ignored text.toList) word rest) :
    (∀ kind, parse text = .error (.unsupportedOperation kind) ↔
      kind ∈ refusedKeywords ∧ kind.toList <+: word) ∧
    (∀ found, parse text = .ok found ↔ ∃ more, word = keyword ++ more ∧
      parse (String.ofList (keyword ++ ' ' :: (more ++ rest))) = .ok found) ∧
    ((∀ known ∈ "query" :: refusedKeywords, ¬ known.toList <+: word) →
      parse text = .error
        (.malformed (offset text.toList (ignored text.toList)) .expectedBrace false)) ∧
    ∀ trailing, Operation (ignored text.toList) trailing → "fragment".toList <+: trailing →
      parse text = .error (.unsupportedFragment (offset text.toList trailing)) := by
  refine ⟨fun kind => ?_, fun found => ?_, parseChars_unknown first, fun _ => parseChars_fragment⟩
  · rw [parse, parseChars_unsupported_iff]
    refine and_congr_right fun member => first.begins_iff (known_letters ?_)
    exact List.mem_cons_of_mem "query" member
  · rw [parse]
    constructor
    · intro read
      have begins : keyword <+: word := by
        refine Decidable.byContradiction fun unknown => ?_
        rw [parseChars_ok_iff, operation_unknown first unknown] at read
        cases read
      obtain ⟨more, rfl⟩ := begins
      refine ⟨more, rfl, ?_⟩
      rw [parse, String.toList_ofList]
      exact (parseChars_keyword first).mp read
    · rintro ⟨more, rfl, read⟩
      rw [parse, String.toList_ofList] at read
      exact (parseChars_keyword first).mpr read

theorem joined_name_decides :
    (NameAt (ignored "# all\nqueryAll\x7ba\x7d".toList) "queryAll".toList "\x7ba\x7d".toList ∧
      parse "# all\nqueryAll\x7ba\x7d" = .ok [⟨"a", none, none⟩]) ∧
    (NameAt (ignored "fragments\x7ba\x7d".toList) "fragments".toList "\x7ba\x7d".toList ∧
      parse "fragments\x7ba\x7d" = .error (.malformed 0 .expectedBrace false)) ∧
    (NameAt (ignored "query\x7ba\x7dfragments".toList) "query".toList
        "\x7ba\x7dfragments".toList ∧
      parse "query\x7ba\x7dfragments" = .error (.unsupportedFragment 8)) := by
  have joined : NameAt (ignored "# all\nqueryAll\x7ba\x7d".toList) "queryAll".toList
      "\x7ba\x7d".toList := name?_iff.mp (by decide +kernel)
  have unknown : NameAt (ignored "fragments\x7ba\x7d".toList) "fragments".toList
      "\x7ba\x7d".toList := name?_iff.mp (by decide +kernel)
  have trailed : NameAt (ignored "query\x7ba\x7dfragments".toList) "query".toList
      "\x7ba\x7dfragments".toList := name?_iff.mp (by decide +kernel)
  have leaf : HeadAt "a\x7dfragments".toList ['a'] none "\x7dfragments".toList :=
    .head (name?_iff.mp (by decide +kernel)) .absent .absent .none
  have whole : Operation "query\x7ba\x7dfragments".toList "fragments".toList :=
    .operation (.present .absent .absent .none) .none
      (.braces (.more .none (.leaf leaf) .none) .none) .none
  refine ⟨⟨joined, ?_⟩, ⟨unknown, ?_⟩, ⟨trailed, ?_⟩⟩
  · refine ((first_name_decides _ joined).2.1 _).mpr ⟨"All".toList, rfl, ?_⟩
    rw [parse, String.toList_ofList]
    rfl
  · exact (first_name_decides _ unknown).2.2.1 (by decide)
  · exact (first_name_decides _ trailed).2.2.2 _ whole ⟨['s'], rfl⟩

theorem keyword_not_whole :
    (NameAt (ignored "fragment F on T\x7ba\x7d".toList) "fragment".toList
        " F on T\x7ba\x7d".toList ∧
      ∀ place, parse "fragment F on T\x7ba\x7d" ≠ .error (.unsupportedFragment place)) ∧
    (NameAt (ignored "queryAll\x7ba\x7d".toList) "queryAll".toList "\x7ba\x7d".toList ∧
      parse "queryAll\x7ba\x7d" = .ok [⟨"a", none, none⟩]) ∧
    (NameAt (ignored "mutations\x7ba\x7d".toList) "mutations".toList "\x7ba\x7d".toList ∧
      parse "mutations\x7ba\x7d" = .error (.unsupportedOperation "mutation")) := by
  have malformed : parse "fragment F on T\x7ba\x7d" =
      .error (.malformed 0 .expectedBrace false) := by
    rw [parse, String.toList_ofList]
    rfl
  refine ⟨⟨name?_iff.mp (by decide +kernel), fun place refused => ?_⟩,
    ⟨name?_iff.mp (by decide +kernel), ?_⟩, ⟨name?_iff.mp (by decide +kernel), ?_⟩⟩
  · rw [malformed] at refused
    cases refused
  · rw [parse, String.toList_ofList]
    rfl
  · rw [parse, String.toList_ofList]
    rfl

end SchemaSampler.Query
