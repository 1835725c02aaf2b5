import SchemaSampler.Proofs.Query.Checked
import SchemaSampler.Proofs.Query.Viability

namespace SchemaSampler.Query

def QueryError.place? : QueryError → Option Nat
  | malformed offset _ _ => some offset
  | unsupportedFragment offset => some offset
  | _ => none

def Viable (front : List Char) : Prop :=
  ∃ close found, parseChars (front ++ close) = .ok found

theorem Stuck.viable {text start : List Char} {refusal : Fault} (before : Ignorable text start)
    (stuck : Stuck Operation start refusal) : ∃ front, text = front ++ refusal.rest ∧ Viable front := by
  obtain ⟨close, closes⟩ := stuck.closes
  obtain ⟨changed, replaced, operation⟩ := closes []
  obtain ⟨whole, replaced, before⟩ := before.moved replaced
  obtain ⟨⟨front, same, rfl⟩, _⟩ := replaced
  cases operation with
  | operation header between set after =>
    exact ⟨front, same, _, _, parseChars_complete (.operation before header between set after.feed)⟩

theorem trailing_stuck {text rest : List Char} {found : List Selection}
    (read : operation text = .ok (found, rest)) : Stuck Operation text ⟨.trailing, rest⟩ := by
  obtain ⟨afterHeader, body, afterSet, header, between, set, rfl⟩ := operation_sound read
  have whole : Operation text (ignored afterSet) :=
    .operation header between set (ignorable_ignored afterSet)
  exact ⟨⟨[], fun rest => whole.moved (.here .feed)⟩, fun spread => by cases spread⟩

theorem offset_append (front rest : List Char) : offset (front ++ rest) rest = byteLength front := by
  simp [offset, Checked.byteLength_append]

theorem operation_viable {text : List Char} {refusal : Fault}
    (refused : operation (ignored text) = .error refusal) :
    ∃ front, text = front ++ refusal.rest ∧ Viable front :=
  (operation_stuck refused).viable (ignorable_ignored text)

theorem trailing_viable {text rest : List Char} {found : List Selection}
    (read : operation (ignored text) = .ok (found, rest)) :
    ∃ front, text = front ++ rest ∧ Viable front :=
  (trailing_stuck read).viable (ignorable_ignored text)

namespace Checked

def error (text : List Char) (refusal : Fault) : Option QueryError := do
  let place ← minus (byteLength text) (byteLength refusal.rest)
  match refusal.reason with
  | .spread => return .unsupportedFragment place
  | reason => return .malformed place reason refusal.rest.isEmpty

def conclude (text : List Char) :
    Except Fault (List Selection × List Char) → Option (Except QueryError (List Selection))
  | .error refusal => return .error (← error text refusal)
  | .ok (found, rest) => do
    if rest.isEmpty then return .ok found
    else if "fragment".toList.isPrefixOf rest then
      return .error (.unsupportedFragment (← minus (byteLength text) (byteLength rest)))
    else return .error (← error text ⟨.trailing, rest⟩)

def parseChars (text : List Char) : Option (Except QueryError (List Selection)) := do
  let start ← ignored text
  if start.isEmpty then return .error .empty
  else match refusedKeywords.find? fun keyword => keyword.toList.isPrefixOf start with
    | some keyword => return .error (.unsupportedOperation keyword)
    | none => conclude text (← (operation start).run)

theorem minus_rest {text front rest : List Char} (whole : text = front ++ rest) :
    minus (byteLength text) (byteLength rest) = some (offset text rest) := by
  rw [whole, offset_append, byteLength_append, Nat.add_comm, minus_add]

theorem error_eq {text front : List Char} {refusal : Fault} (whole : text = front ++ refusal.rest) :
    error text refusal = some (refusal.error text) := by
  unfold error Fault.error
  rw [minus_rest whole]
  cases refusal.reason <;> rfl

theorem parseChars_eq (text : List Char) : parseChars text = some (Query.parseChars text) := by
  unfold parseChars Query.parseChars
  rw [ignored_eq, Option.bind_eq_bind, Option.bind_some]
  dsimp only
  by_cases blank : (Query.ignored text).isEmpty = true
  · rw [if_pos blank, if_pos blank]
    rfl
  rw [if_neg blank, if_neg blank]
  cases refusedKeywords.find? fun keyword => keyword.toList.isPrefixOf (Query.ignored text) with
  | some keyword => rfl
  | none =>
    rw [operation_eq]
    change conclude text (Query.operation (Query.ignored text)) = _
    cases read : Query.operation (Query.ignored text) with
    | error refusal =>
      obtain ⟨front, whole, _⟩ := operation_viable read
      rw [conclude, error_eq whole]
      rfl
    | ok result =>
      obtain ⟨found, rest⟩ := result
      obtain ⟨front, whole, _⟩ := trailing_viable read
      have trailing := @error_eq text front ⟨.trailing, rest⟩ whole
      rw [conclude, minus_rest whole, trailing]
      dsimp only
      split
      · rfl
      · split <;> rfl

end Checked

theorem Fault.error_place {text front : List Char} {refusal : Fault}
    (whole : text = front ++ refusal.rest) :
    (refusal.error text).place? = some (byteLength front) := by
  obtain ⟨reason, rest⟩ := refusal
  subst whole
  simp only [Fault.error, offset_append]
  cases reason <;> rfl

theorem Fault.error_spread {text : List Char} {refusal : Fault} {place : Nat}
    (fragment : refusal.error text = .unsupportedFragment place) : refusal.reason = .spread := by
  obtain ⟨reason, rest⟩ := refusal
  cases reason
  case spread => rfl
  all_goals cases fragment

-- Only a fragment or a spread is refused as a fragment.
theorem parseChars_refused {text : List Char} {error : QueryError} {place : Nat}
    (refused : parseChars text = .error error) (placed : error.place? = some place) :
    ∃ front rest, text = front ++ rest ∧ byteLength front = place ∧ Viable front ∧
      (error = .unsupportedFragment place →
        "...".toList <+: rest ∨ "fragment".toList <+: rest) := by
  unfold parseChars at refused
  dsimp only at refused
  split at refused
  · cases refused
    cases placed
  · split at refused
    · cases refused
      cases placed
    · split at refused
      · rename_i refusal read
        obtain ⟨front, whole, viable⟩ := operation_viable read
        cases refused
        rw [Fault.error_place whole] at placed
        cases placed
        refine ⟨front, refusal.rest, whole, rfl, viable, fun fragment => .inl ?_⟩
        exact (operation_stuck read).spread (Fault.error_spread fragment)
      · rename_i found rest read
        obtain ⟨front, whole, viable⟩ := trailing_viable read
        split at refused
        · cases refused
        · split at refused
          · rename_i begins
            cases refused
            cases placed
            rw [whole, offset_append]
            exact ⟨front, rest, rfl, rfl, viable,
              fun _ => .inr (List.isPrefixOf_iff_prefix.mp begins)⟩
          · cases refused
            rw [@Fault.error_place text front ⟨.trailing, rest⟩ whole] at placed
            cases placed
            exact ⟨front, rest, whole, rfl, viable, fun fragment => by cases fragment⟩

theorem utf8ByteSize_ofList (text : List Char) : (String.ofList text).utf8ByteSize = byteLength text := by
  induction text with
  | nil => rfl
  | cons c rest ih =>
    have split : String.ofList (c :: rest) = String.singleton c ++ String.ofList rest := by
      rw [String.singleton_eq_ofList, ← String.ofList_append]
      rfl
    rw [split, String.utf8ByteSize_append, String.utf8ByteSize_singleton, ih, byteLength]

-- The place of an error lies between two characters, and what is before it begins some query.
theorem refusal_placed (query : String) :
    Checked.parseChars query.toList = some (parse query) ∧
      ∀ error place, parse query = .error error → error.place? = some place →
        place ≤ query.utf8ByteSize ∧ String.Pos.Raw.IsValid query ⟨place⟩ ∧
          ∃ before after, query = before ++ after ∧ before.utf8ByteSize = place ∧
            (∃ more found, parse (before ++ more) = .ok found) ∧
              (error = .unsupportedFragment place →
                "...".toList <+: after.toList ∨ "fragment".toList <+: after.toList) := by
  refine ⟨Checked.parseChars_eq query.toList, fun error place refused placed => ?_⟩
  obtain ⟨front, rest, whole, length, ⟨close, found, completed⟩, fragment⟩ :=
    parseChars_refused refused placed
  have same : query = String.ofList front ++ String.ofList rest := by
    rw [← String.ofList_append, ← whole, String.ofList_toList]
  have size : (String.ofList front).utf8ByteSize = place := by rw [utf8ByteSize_ofList, length]
  refine ⟨?_, ?_, String.ofList front, String.ofList rest, same, size, ?_, ?_⟩
  · rw [same, String.utf8ByteSize_append]
    omega
  · rw [String.Pos.Raw.isValid_iff_exists_append]
    exact ⟨_, _, same, by ext; exact size.symm⟩
  · refine ⟨String.ofList close, found, ?_⟩
    rw [← String.ofList_append, parse, String.toList_ofList, completed]
  · rwa [@String.toList_ofList rest]

-- Places are counted in bytes.
theorem spread_placed : parse "\x7b a(x: \"é\") ...B \x7d" = .error (.unsupportedFragment 13) ∧
    ∃ before after, "\x7b a(x: \"é\") ...B \x7d" = before ++ after ∧ before.utf8ByteSize = 13 ∧
      (∃ more found, parse (before ++ more) = .ok found) ∧
        ("...".toList <+: after.toList ∨ "fragment".toList <+: after.toList) := by
  have refused : parse "\x7b a(x: \"é\") ...B \x7d" = .error (.unsupportedFragment 13) := by
    rw [parse, String.toList_ofList]
    rfl
  obtain ⟨_, _, before, after, same, size, completed, fragment⟩ :=
    (refusal_placed "\x7b a(x: \"é\") ...B \x7d").2 _ 13 refused rfl
  exact ⟨refused, before, after, same, size, completed, fragment rfl⟩

end SchemaSampler.Query
