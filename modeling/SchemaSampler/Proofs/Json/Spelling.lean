import SchemaSampler.Json.Printer
import SchemaSampler.Json.Reader

namespace SchemaSampler.Json

open Document

mutual

def spelled : Json → List Token
  | null => [.leaf .null]
  | bool value => [.leaf (.bool value)]
  | num number => [.leaf (.num (some number))]
  | str text => [.leaf (.str (some text))]
  | arr items => .beginArray :: (spelledItems items ++ [.endArray])
  | obj members => .beginObject :: (spelledMembers members ++ [.endObject])

def spelledItems : List Json → List Token
  | [] => []
  | [item] => spelled item
  | item :: rest => spelled item ++ .comma :: spelledItems rest

def spelledMembers : List (String × Json) → List Token
  | [] => []
  | [(name, value)] => .leaf (.str (some name)) :: .colon :: spelled value
  | (name, value) :: rest =>
    .leaf (.str (some name)) :: .colon :: (spelled value ++ .comma :: spelledMembers rest)

end

mutual

def node : Json → Node Leaf
  | null => .leaf .null
  | bool value => .leaf (.bool value)
  | num number => .leaf (.num (some number))
  | str text => .leaf (.str (some text))
  | arr items => .seq none (nodes items)
  | obj members => .map none (memberNodes members)

def nodes : List Json → List (Node Leaf)
  | [] => []
  | item :: rest => node item :: nodes rest

def memberNodes : List (String × Json) → List (Node Leaf × Node Leaf)
  | [] => []
  | (name, value) :: rest => (.leaf (.str (some name)), node value) :: memberNodes rest

end

-- Values that hold no numbers and whose containers nest at most so deep.
inductive Plain : Nat → Json → Prop where
  | null : Plain depth .null
  | bool : Plain depth (.bool value)
  | str : Plain depth (.str content)
  | arr (each : ∀ item ∈ items, Plain depth item) : Plain (depth + 1) (.arr items)
  | obj (each : ∀ member ∈ members, Plain depth member.2) : Plain (depth + 1) (.obj members)

section Strings

theorem hexUnit_control : ∀ code < 0x20,
    hexUnit? '0' '0' (hexDigit (code / 16)) (hexDigit code) = some code := by
  decide

theorem joinPieces_unit {code : Nat} (pieces : List Piece) (small : code < 0xD800) :
    joinPieces (.unit code :: pieces) = (joinPieces pieces).map (Char.ofNat code :: ·) := by
  have notHigh : isHighSurrogate code = false := by simp [isHighSurrogate]; omega
  have notLow : isLowSurrogate code = false := by simp [isLowSurrogate]; omega
  rcases pieces with _ | ⟨_ | _, _⟩ <;> simp [joinPieces, notHigh, notLow]

theorem stringPieces_short {mark c : Char} (short : shortEscape? mark = some c) (rest : List Char) :
    stringPieces ('\\' :: mark :: rest) =
      (stringPieces rest).map fun found => (.char c :: found.1, found.2) := by
  have notUnit : mark ≠ 'u' := by
    rintro rfl
    cases short
  cases read : stringPieces rest <;> simp [stringPieces, short, notUnit, read]

theorem stringPieces_unit {a b c d : Char} {code : Nat} (unit : hexUnit? a b c d = some code)
    (rest : List Char) : stringPieces ('\\' :: 'u' :: a :: b :: c :: d :: rest) =
      (stringPieces rest).map fun found => (.unit code :: found.1, found.2) := by
  cases read : stringPieces rest <;> simp [stringPieces, unit, read]

theorem stringPieces_plain {c : Char} (notQuote : c ≠ '"') (notSlash : c ≠ '\\')
    (printed : ¬ c.toNat < 0x20) (rest : List Char) : stringPieces (c :: rest) =
      (stringPieces rest).map fun found => (.char c :: found.1, found.2) := by
  cases read : stringPieces rest <;> simp [stringPieces, notSlash, printed, read]

-- A slash may be read so and never is written so.
def shortEscaped : List Char := ['"', '\\', '\x08', '\x0c', '\n', '\r', '\t']

theorem escape_short {c : Char} (short : c ∈ shortEscaped) :
    ∃ mark, escape c = ['\\', mark] ∧ shortEscape? mark = some c := by
  simp only [shortEscaped, List.mem_cons, List.not_mem_nil, or_false] at short
  rcases short with rfl | rfl | rfl | rfl | rfl | rfl | rfl <;> exact ⟨_, rfl, rfl⟩

theorem escape_long {c : Char} (long : c ∉ shortEscaped) : escape c =
    if c.toNat < 0x20 then ['\\', 'u', '0', '0', hexDigit (c.toNat / 16), hexDigit c.toNat]
    else [c] := by
  simp only [shortEscaped, List.mem_cons, List.not_mem_nil, or_false, not_or] at long
  simp [escape, long]

theorem escape_read (c : Char) : ∃ piece,
    (∀ rest, stringPieces (escape c ++ rest) =
      (stringPieces rest).map fun found => (piece :: found.1, found.2)) ∧
    ∀ pieces, joinPieces (piece :: pieces) = (joinPieces pieces).map (c :: ·) := by
  by_cases short : c ∈ shortEscaped
  · obtain ⟨mark, written, means⟩ := escape_short short
    rw [written]
    exact ⟨.char c, stringPieces_short means, fun _ => rfl⟩
  · rw [escape_long short]
    by_cases control : c.toNat < 0x20
    · rw [if_pos control]
      refine ⟨.unit c.toNat, stringPieces_unit (hexUnit_control _ control), fun pieces => ?_⟩
      rw [joinPieces_unit pieces (by omega), Char.ofNat_toNat]
    · rw [if_neg control]
      refine ⟨.char c, stringPieces_plain ?_ ?_ control, fun _ => rfl⟩
      · rintro rfl
        exact short (by decide)
      · rintro rfl
        exact short (by decide)

theorem string_read (chars rest : List Char) : ∃ pieces,
    stringPieces (chars.flatMap escape ++ '"' :: rest) = some (pieces, rest) ∧
      joinPieces pieces = some chars := by
  induction chars with
  | nil => exact ⟨[], by simp [stringPieces], rfl⟩
  | cons c chars ih =>
    obtain ⟨pieces, read, joined⟩ := ih
    obtain ⟨piece, one, means⟩ := escape_read c
    refine ⟨piece :: pieces, ?_, ?_⟩
    · rw [List.flatMap_cons, List.append_assoc, one, read]
      rfl
    · rw [means, joined]
      rfl

end Strings

section Tokens

theorem tokens_nil (steps : Nat) : tokens steps [] = ([], true) := by
  cases steps <;> rfl

-- A text that is cut into the same tokens whatever follows it, each taking a character.
def CutInto (text : List Char) (found : List Token) : Prop :=
  found.length ≤ text.length ∧ ∀ steps rest, tokens (steps + found.length) (text ++ rest) =
    (found ++ (tokens steps rest).1, (tokens steps rest).2)

theorem cut_nil : CutInto [] [] := ⟨Nat.le_refl _, fun _ _ => rfl⟩

theorem cut_append {text more : List Char} {found others : List Token} (first : CutInto text found)
    (later : CutInto more others) : CutInto (text ++ more) (found ++ others) := by
  refine ⟨?_, fun steps rest => ?_⟩
  · rw [List.length_append, List.length_append]
    exact Nat.add_le_add first.1 later.1
  · rw [List.length_append, List.append_assoc, Nat.add_comm found.length, ← Nat.add_assoc, first.2,
      later.2, List.append_assoc]

theorem cut_token {c : Char} {tail : List Char} {token : Token} (starts : isSpace c = false)
    (read : ∀ rest, token? (c :: (tail ++ rest)) = some (token, rest)) :
    CutInto (c :: tail) [token] := by
  refine ⟨by simp, fun steps rest => ?_⟩
  simp [tokens, starts, read]

theorem cut_sign {c : Char} {token : Token} {text : List Char} {found : List Token}
    (starts : isSpace c = false) (read : ∀ rest, token? (c :: rest) = some (token, rest))
    (later : CutInto text found) : CutInto (c :: text) (token :: found) := by
  have sign : CutInto [c] [token] := cut_token starts read
  exact cut_append sign later

theorem cut_quoted (content : String) : CutInto (quoted content) [.leaf (.str (some content))] := by
  refine cut_token rfl fun rest => ?_
  obtain ⟨pieces, read, joined⟩ := string_read content.toList rest
  rw [List.append_assoc, List.singleton_append, token?, read]
  simp [joined]

theorem cut_items {items : List Json} (each : ∀ item ∈ items, CutInto item.compact item.spelled) :
    CutInto (compactItems items) (spelledItems items) := by
  induction items with
  | nil => exact cut_nil
  | cons item rest ih =>
    rw [List.forall_mem_cons] at each
    cases rest with
    | nil => exact each.1
    | cons other rest => exact cut_append each.1 (cut_sign rfl (fun _ => rfl) (ih each.2))

theorem cut_members {members : List (String × Json)}
    (each : ∀ member ∈ members, CutInto member.2.compact member.2.spelled) :
    CutInto (compactMembers members) (spelledMembers members) := by
  induction members with
  | nil => exact cut_nil
  | cons member rest ih =>
    rw [List.forall_mem_cons] at each
    have name := cut_quoted member.1
    cases rest with
    | nil => exact cut_append name (cut_sign rfl (fun _ => rfl) each.1)
    | cons other rest =>
      exact cut_append name (cut_sign rfl (fun _ => rfl)
        (cut_append each.1 (cut_sign rfl (fun _ => rfl) (ih each.2))))

theorem cut_compact {depth : Nat} {value : Json} (plain : Plain depth value) :
    CutInto value.compact value.spelled := by
  induction plain with
  | null => exact cut_token rfl fun _ => rfl
  | @bool _ value => cases value <;> exact cut_token rfl fun _ => rfl
  | str => exact cut_quoted _
  | arr each ih =>
    exact cut_sign rfl (fun _ => rfl) (cut_append (cut_items ih) (cut_token rfl fun _ => rfl))
  | obj each ih =>
    exact cut_sign rfl (fun _ => rfl) (cut_append (cut_members ih) (cut_token rfl fun _ => rfl))

end Tokens

section Trees

theorem tree_items {steps : Nat} {found : List Token} (more : ∀ rest, found ≠ .endArray :: rest) :
    tree (steps + 1) (.beginArray :: found) =
      (.seq none (treeItems steps found).1, (treeItems steps found).2) := by
  rw [tree.eq_def]
  split
  all_goals simp_all

theorem tree_members {steps : Nat} {found : List Token}
    (more : ∀ rest, found ≠ .endObject :: rest) :
    tree (steps + 1) (.beginObject :: found) =
      (.map none (treeMembers steps found).1, (treeMembers steps found).2) := by
  rw [tree.eq_def]
  split
  all_goals simp_all

theorem spelledItems_cons (item other : Json) (items : List Json) :
    spelledItems (item :: other :: items) =
      item.spelled ++ .comma :: spelledItems (other :: items) := rfl

theorem spelledMembers_cons (member other : String × Json) (members : List (String × Json)) :
    spelledMembers (member :: other :: members) =
      .leaf (.str (some member.1)) :: .colon ::
        (member.2.spelled ++ .comma :: spelledMembers (other :: members)) := rfl

theorem spelled_pos (value : Json) : 0 < value.spelled.length := by
  cases value <;> simp [spelled]

theorem spelledItems_ne_end (item : Json) (items : List Json) (others rest : List Token) :
    spelledItems (item :: items) ++ others ≠ .endArray :: rest := by
  cases items <;> cases item <;> simp [spelledItems, spelled]

theorem spelledMembers_ne_end (member : String × Json) (members : List (String × Json))
    (others rest : List Token) :
    spelledMembers (member :: members) ++ others ≠ .endObject :: rest := by
  cases members <;> simp [spelledMembers]

-- Every token pays for two steps.
def BuiltBack (value : Json) : Prop := ∀ steps rest, 2 * value.spelled.length ≤ steps →
  tree steps (value.spelled ++ rest) = (value.node, rest)

theorem treeItems_spelled {item : Json} {items : List Json}
    (each : ∀ inner ∈ item :: items, BuiltBack inner) {steps : Nat} (rest : List Token)
    (enough : 2 * (spelledItems (item :: items)).length < steps) :
    treeItems steps (spelledItems (item :: items) ++ .endArray :: rest) =
      (nodes (item :: items), rest) := by
  induction items generalizing item steps with
  | nil =>
    obtain _ | steps := steps
    · omega
    · rw [spelledItems] at enough ⊢
      rw [treeItems, each item (by simp) steps _ (by omega)]
      rfl
  | cons other items ih =>
    rw [spelledItems_cons, List.length_append, List.length_cons] at enough
    rw [List.forall_mem_cons] at each
    obtain _ | steps := steps
    · omega
    · have room := item.spelled_pos
      rw [spelledItems_cons, List.append_assoc, List.cons_append, treeItems,
        each.1 steps _ (by omega)]
      dsimp only
      rw [ih each.2 (by omega)]
      rfl

theorem treeMembers_spelled {member : String × Json} {members : List (String × Json)}
    (each : ∀ inner ∈ member :: members, BuiltBack inner.2) {steps : Nat} (rest : List Token)
    (enough : 2 * (spelledMembers (member :: members)).length < steps) :
    treeMembers steps (spelledMembers (member :: members) ++ .endObject :: rest) =
      (memberNodes (member :: members), rest) := by
  induction members generalizing member steps with
  | nil =>
    obtain ⟨name, value⟩ := member
    rw [spelledMembers, List.length_cons, List.length_cons] at enough
    obtain _ | steps := steps
    · omega
    · rw [spelledMembers, List.cons_append, List.cons_append, treeMembers,
        each (name, value) (by simp) steps _ (by dsimp only; omega)]
      rfl
  | cons other members ih =>
    obtain ⟨name, value⟩ := member
    rw [spelledMembers_cons, List.length_cons, List.length_cons, List.length_append,
      List.length_cons] at enough
    rw [List.forall_mem_cons] at each
    obtain _ | steps := steps
    · omega
    · rw [spelledMembers_cons, List.cons_append, List.cons_append, List.append_assoc,
        List.cons_append, treeMembers, each.1 steps _ (by omega)]
      dsimp only
      rw [ih each.2 (by omega)]
      rfl

theorem builtBack_of_plain {depth : Nat} {value : Json} (plain : Plain depth value) :
    BuiltBack value := by
  induction plain with
  | null | bool | str =>
    intro steps rest enough
    obtain _ | steps := steps
    · cases enough
    · rfl
  | @arr items depth each ih =>
    intro steps rest enough
    rw [spelled, List.length_cons, List.length_append, List.length_singleton] at enough
    obtain _ | steps := steps
    · omega
    · cases items with
      | nil => rfl
      | cons item items =>
        rw [spelled, List.cons_append, List.append_assoc, List.singleton_append,
          tree_items (spelledItems_ne_end item items _), treeItems_spelled ih rest (by omega)]
        rfl
  | @obj members depth each ih =>
    intro steps rest enough
    rw [spelled, List.length_cons, List.length_append, List.length_singleton] at enough
    obtain _ | steps := steps
    · omega
    · cases members with
      | nil => rfl
      | cons member members =>
        rw [spelled, List.cons_append, List.append_assoc, List.singleton_append,
          tree_members (spelledMembers_ne_end member members _),
          treeMembers_spelled ih rest (by omega)]
        rfl

theorem limit_node {depth : Nat} {value : Json} (plain : Plain depth value) :
    limit depth value.node = value.node := by
  induction plain with
  | null | bool | str => rw [node, limit] <;> nofun
  | @arr items depth each ih =>
    rw [node, limit]
    congr 1
    induction items with
    | nil => rfl
    | cons item items later =>
      rw [List.forall_mem_cons] at each ih
      rw [nodes, limitItems, ih.1, later each.2 ih.2]
  | @obj members depth each ih =>
    rw [node, limit]
    congr 1
    induction members with
    | nil => rfl
    | cons member members later =>
      rw [List.forall_mem_cons] at each ih
      rw [memberNodes, limitMembers, ih.1, later each.2 ih.2]

end Trees

theorem document_text {value : Json} (plain : Plain nestingLimit value) :
    document value.text = { root := value.node, lookups := 0, complete := true } := by
  obtain ⟨short, read⟩ := cut_compact plain
  obtain ⟨spare, enough⟩ := Nat.exists_eq_add_of_le short
  have found : tokens value.compact.length value.compact = (value.spelled, true) := by
    have whole := read spare []
    rwa [List.append_nil, Nat.add_comm, ← enough, tokens_nil, List.append_nil] at whole
  have built : tree (2 * value.spelled.length + 1) value.spelled = (value.node, []) := by
    have whole := builtBack_of_plain plain (2 * value.spelled.length + 1) [] (Nat.le_succ _)
    rwa [List.append_nil] at whole
  simp [document, text, String.toList_ofList, found, built, limit_node plain]

end SchemaSampler.Json
