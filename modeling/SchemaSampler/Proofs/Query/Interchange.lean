import SchemaSampler.Proofs.Query.Groups
import SchemaSampler.Proofs.Query.Documents

namespace SchemaSampler.Query

open Checked (quotes)

-- What a comment in a group may hold is said by `kept`.
inductive Reads (kept : Nat → List Char → Prop) : Nat → List Char → Nat → Prop where
  | stop : Reads kept depth [] depth
  | opened (more : Reads kept (depth + 1) rest last) : Reads kept depth ('(' :: rest) last
  | closed (more : Reads kept (depth - 1) rest last) : Reads kept depth (')' :: rest) last
  | block (body : BlockTail tail) (more : Reads kept depth rest last) :
      Reads kept depth (quotes ++ (tail ++ rest)) last
  | string (notBlock : ¬ quotes <+: '"' :: (tail ++ rest)) (body : StringTail tail)
      (more : Reads kept depth rest last) : Reads kept depth ('"' :: (tail ++ rest)) last
  | comment (inLine : '\n' ∉ line) (allowed : 0 < depth → kept depth line)
      (more : Reads kept depth rest last) : Reads kept depth ('#' :: (line ++ '\n' :: rest)) last
  | other (plain : c ∉ ['(', ')', '"', '#']) (more : Reads kept depth rest last) :
      Reads kept depth (c :: rest) last

-- Either the first group ends in the text, or the scan for its end goes on after it.
inductive Grouped (depth last : Nat) (text : List Char) : Prop where
  | ends (closes : ∀ other : List Char, other.head? ≠ some '"' →
      closeGroup .plain depth (text ++ other) = some (inside, after ++ other))
      (outside : Reads Level 0 after last) : Grouped depth last text
  | goesOn (stays : ∀ other : List Char, other.head? ≠ some '"' →
      closeGroup .plain depth (text ++ other) =
        closeGroup.keep text (closeGroup .plain last other)) : Grouped depth last text

namespace Grouped

variable {depth next last : Nat} {front rest : List Char}

theorem step (grouped : Grouped next last rest)
    (passed : ∀ other : List Char, other.head? ≠ some '"' →
      closeGroup .plain depth (front ++ (rest ++ other)) =
        closeGroup.keep front (closeGroup .plain next (rest ++ other))) :
    Grouped depth last (front ++ rest) := by
  cases grouped with
  | @ends inside after closes outside =>
    refine @Grouped.ends _ _ _ (front ++ inside) after (fun other apart => ?_) outside
    rw [List.append_assoc, passed other apart, closes other apart]
    rfl
  | goesOn stays =>
    refine .goesOn fun other apart => ?_
    rw [List.append_assoc, passed other apart, stays other apart, keep_keep]

end Grouped

theorem Reads.grouped {text : List Char} {depth last : Nat} (reads : Reads Level depth text last)
    (opened : 0 < depth) (inside : 0 < last) : Grouped depth last text := by
  induction reads with
  | stop => exact .goesOn fun other _ => by rw [List.nil_append, keep_nil]
  | @opened depth rest last more ih =>
    refine @Grouped.step _ _ _ ['('] _ (ih (Nat.succ_pos depth) inside) fun other _ => ?_
    simp [closeGroup]
  | @closed depth rest last more ih =>
    by_cases outermost : depth = 1
    · subst outermost
      exact @Grouped.ends _ _ _ [')'] rest (fun other _ => by simp [closeGroup]) more
    · refine @Grouped.step _ _ _ [')'] _ (ih (by omega) inside) fun other _ => ?_
      simp [closeGroup, show ¬ depth ≤ 1 by omega]
  | @block tail depth rest last body more ih =>
    rw [← List.append_assoc]
    refine (ih opened inside).step fun other _ => ?_
    simp [quotes, closeGroup, body.scan, keep_keep]
  | @string tail rest depth last notBlock body more ih =>
    refine @Grouped.step _ _ _ ('"' :: tail) _ (ih opened inside) fun other apart => ?_
    have stillNotBlock := notBlock_append (by simp [body.ne_nil]) apart notBlock
    rw [List.append_assoc] at stillNotBlock
    rw [List.cons_append, closeGroup, if_pos rfl, body.scan, keep_keep]
    · rfl
    · intro more _ same
      exact stillNotBlock ⟨more, by rw [same]; rfl⟩
  | @comment line depth rest last inLine allowed more ih =>
    rw [List.append_cons, ← List.cons_append]
    refine (ih opened inside).step fun other _ => ?_
    have passes : Passes depth ('#' :: line) depth := .other (by decide) (allowed opened)
    have scanned : closeGroup .plain depth ('#' :: line ++ '\n' :: (rest ++ other)) = _ :=
      passes.scan (by simp)
    have feed : closeGroup .plain depth ('\n' :: (rest ++ other)) =
        closeGroup.keep ['\n'] (closeGroup .plain depth (rest ++ other)) := by
      simp [closeGroup]
    rw [← List.cons_append, List.append_assoc, List.singleton_append, scanned, feed, keep_keep]
  | @other c depth rest last plain more ih =>
    refine @Grouped.step _ _ _ [c] _ (ih opened inside) fun other _ => ?_
    simp only [List.mem_cons, List.not_mem_nil, or_false, not_or] at plain
    simp [closeGroup, plain]

theorem separator_token {c : Char} (separates : c ∈ [' ', '\t', '\r', '\n', ',']) :
    c ∉ ['(', ')', '"', '#'] := by
  simp only [List.mem_cons, List.not_mem_nil, or_false] at separates
  rcases separates with rfl | rfl | rfl | rfl | rfl <;> decide

theorem nameChar_token {c : Char} (letter : isNameChar c = true) : c ∉ ['(', ')', '"', '#'] := by
  intro member
  simp only [List.mem_cons, List.not_mem_nil, or_false] at member
  rcases member with rfl | rfl | rfl | rfl <;> exact absurd letter (by decide)

theorem Reads.nonempty {kept : Nat → List Char → Prop} {front : List Char} {last : Nat}
    (reads : Reads kept 0 front last) (inside : 0 < last) : ∃ c more, front = c :: more := by
  cases front with
  | nil =>
    cases reads
    exact absurd inside (Nat.lt_irrefl 0)
  | cons c more => exact ⟨c, more, rfl⟩

theorem Reads.token {kept : Nat → List Char → Prop} {c : Char} {rest : List Char}
    {depth last : Nat} (reads : Reads kept depth (c :: rest) last)
    (token : c ∉ ['(', ')', '"', '#']) : Reads kept depth rest last := by
  generalize same : c :: rest = text at reads
  cases reads with
  | stop => cases same
  | other plain more =>
    cases same
    exact more
  | _ =>
    cases same
    exact absurd (by simp) token

theorem Reads.group {kept : Nat → List Char → Prop} {rest : List Char} {depth last : Nat}
    (reads : Reads kept depth ('(' :: rest) last) : Reads kept (depth + 1) rest last := by
  generalize same : '(' :: rest = text at reads
  cases reads with
  | opened more =>
    cases same
    exact more
  | other plain more =>
    cases same
    exact absurd (by simp) plain
  | _ => cases same

theorem Reads.pastComment {kept : Nat → List Char → Prop} {rest : List Char} {depth last : Nat}
    (reads : Reads kept depth ('#' :: rest) last) : ∃ line after, rest = line ++ '\n' :: after ∧
      '\n' ∉ line ∧ Reads kept depth after last := by
  generalize same : '#' :: rest = text at reads
  cases reads with
  | comment inLine allowed more =>
    cases same
    exact ⟨_, _, rfl, inLine, more⟩
  | other plain more =>
    cases same
    exact absurd (by simp) plain
  | _ => cases same

-- LF, or CR and LF: in both cases it is the first LF.
theorem LineEnd.first_feed {body text line after : List Char}
    (inLine : ∀ c ∈ body, c ≠ '\r' ∧ c ≠ '\n') (notFeed : '\n' ∉ line) (ends : LineEnd text)
    (same : body ++ text = line ++ '\n' :: after) :
    ∃ before, (before = [] ∨ before = ['\r']) ∧ line = body ++ before ∧
      text = before ++ '\n' :: after := by
  induction body generalizing line with
  | nil =>
    cases line with
    | nil => exact ⟨[], .inl rfl, rfl, same⟩
    | cons c more =>
      cases ends with
      | text => cases same
      | feed =>
        cases same
        exact absurd (by simp) notFeed
      | carriage =>
        cases more with
        | nil =>
          cases same
          exact ⟨['\r'], .inr rfl, rfl, rfl⟩
        | cons d more =>
          cases same
          exact absurd (by simp) notFeed
  | cons c body ih =>
    cases line with
    | nil =>
      cases same
      exact absurd rfl (inLine '\n' (by simp)).2
    | cons d more =>
      obtain ⟨rfl, others⟩ := List.cons.inj same
      obtain ⟨before, kind, rfl, rest⟩ := ih (fun e member => inLine e (by simp [member]))
        (fun member => notFeed (by simp [member])) others
      exact ⟨before, kind, rfl, rest⟩

structure Filler (depth : Nat) (piece tail : List Char) : Prop where
  level : Level depth piece
  apart : (piece ++ tail).head? ≠ some '"'

structure Swap where
  depth : Nat
  first : List Char
  second : List Char
  tail : List Char
  inside : 0 < depth
  apart : tail.head? ≠ some '"'
  firstFills : Filler depth first tail
  secondFills : Filler depth second tail

namespace Swap

variable {swap : Swap}

def flip (swap : Swap) : Swap :=
  { swap with
    first := swap.second
    second := swap.first
    firstFills := swap.secondFills
    secondFills := swap.firstFills }

-- What is left of the two texts: the same, or the place is still to come.
def Alike (swap : Swap) (text changed : List Char) : Prop :=
  text = changed ∨ ∃ front, Reads Level 0 front swap.depth ∧
    text = front ++ (swap.first ++ swap.tail) ∧ changed = front ++ (swap.second ++ swap.tail)

theorem Alike.symm {text changed : List Char} (alike : swap.Alike text changed) :
    swap.flip.Alike changed text := by
  rcases alike with rfl | ⟨front, reads, same, changedSame⟩
  · exact .inl rfl
  · exact .inr ⟨front, reads, changedSame, same⟩

theorem Alike.token {c : Char} {text changed : List Char} (alike : swap.Alike (c :: text) changed)
    (token : c ∉ ['(', ')', '"', '#']) :
    ∃ changedText, changed = c :: changedText ∧ swap.Alike text changedText := by
  rcases alike with rfl | ⟨front, reads, same, rfl⟩
  · exact ⟨text, rfl, .inl rfl⟩
  · obtain ⟨d, more, rfl⟩ := reads.nonempty swap.inside
    cases same
    exact ⟨_, rfl, .inr ⟨more, reads.token token, rfl, rfl⟩⟩

theorem Alike.tokens {front text changed : List Char}
    (alike : swap.Alike (front ++ text) changed) (tokens : ∀ c ∈ front, c ∉ ['(', ')', '"', '#']) :
    ∃ changedText, changed = front ++ changedText ∧ swap.Alike text changedText := by
  induction front generalizing changed with
  | nil => exact ⟨changed, rfl, alike⟩
  | cons c front ih =>
    obtain ⟨_, rfl, others⟩ := alike.token (tokens c (by simp))
    obtain ⟨changedText, rfl, left⟩ := ih others fun d member => tokens d (by simp [member])
    exact ⟨changedText, rfl, left⟩

theorem Alike.head {text changed : List Char} (alike : swap.Alike text changed) :
    text.head? = changed.head? := by
  rcases alike with rfl | ⟨front, reads, rfl, rfl⟩
  · rfl
  · obtain ⟨c, more, rfl⟩ := reads.nonempty swap.inside
    rfl

theorem Alike.comment {body text changed : List Char}
    (alike : swap.Alike ('#' :: (body ++ text)) changed)
    (inLine : ∀ c ∈ body, c ≠ '\r' ∧ c ≠ '\n') (ends : LineEnd text) :
    ∃ changedText, changed = '#' :: (body ++ changedText) ∧ swap.Alike text changedText ∧
      LineEnd changedText := by
  rcases alike with rfl | ⟨front, reads, same, rfl⟩
  · exact ⟨text, rfl, .inl rfl, ends⟩
  · obtain ⟨c, more, rfl⟩ := reads.nonempty swap.inside
    obtain ⟨rfl, others⟩ := List.cons.inj same
    obtain ⟨line, after, rfl, notFeed, more⟩ := reads.pastComment
    rw [List.append_eq, List.append_assoc, List.cons_append] at others
    obtain ⟨before, kind, rfl, rfl⟩ := ends.first_feed inLine notFeed others
    have feed : Reads Level 0 ('\n' :: after) swap.depth := .other (by decide) more
    rcases kind with rfl | rfl
    · exact ⟨'\n' :: (after ++ (swap.second ++ swap.tail)), by simp,
        .inr ⟨_, feed, rfl, rfl⟩, .feed⟩
    · exact ⟨'\r' :: '\n' :: (after ++ (swap.second ++ swap.tail)), by simp,
        .inr ⟨_, .other (by decide) feed, rfl, rfl⟩, .carriage⟩

theorem Alike.group {text changed inside rest : List Char} (alike : swap.Alike text changed)
    (delimited : group text = .closed inside rest) : ∃ changedInside changedRest,
      swap.Alike rest changedRest ∧ Query.group changed = .closed changedInside changedRest := by
  rcases alike with rfl | ⟨front, reads, rfl, rfl⟩
  · exact ⟨inside, rest, .inl rfl, delimited⟩
  · obtain ⟨c, more, rfl⟩ := reads.nonempty swap.inside
    obtain ⟨whole, others, rfl⟩ := group_closed delimited
    obtain ⟨rfl, _⟩ := List.cons.inj whole
    cases reads.group.grouped (Nat.succ_pos 0) swap.inside with
    | @ends found after closes outside =>
      have here := closes (swap.first ++ swap.tail) swap.firstFills.apart
      have there := closes (swap.second ++ swap.tail) swap.secondFills.apart
      rw [List.cons_append, Checked.group_open, here] at delimited
      cases delimited
      refine ⟨'(' :: found, after ++ (swap.second ++ swap.tail),
        .inr ⟨after, outside, rfl, rfl⟩, ?_⟩
      rw [List.cons_append, Checked.group_open, there]
      rfl
    | goesOn stays =>
      have here := stays (swap.first ++ swap.tail) swap.firstFills.apart
      have there := stays (swap.second ++ swap.tail) swap.secondFills.apart
      rw [swap.firstFills.level.scan swap.apart] at here
      rw [swap.secondFills.level.scan swap.apart] at there
      rw [List.cons_append, Checked.group_open, here] at delimited
      rw [List.cons_append, Checked.group_open, there]
      cases left : closeGroup .plain swap.depth swap.tail with
      | none =>
        rw [left] at delimited
        cases delimited
      | some pair =>
        rw [left] at delimited
        cases delimited
        exact ⟨_, _, .inl rfl, rfl⟩

def Follows (swap : Swap) (part : List Char → List Char → Prop) : Prop :=
  ∀ {text changed rest : List Char}, swap.Alike text changed → part text rest →
    ∃ changedRest, swap.Alike rest changedRest ∧ part changed changedRest

theorem ignorable (swap : Swap) : swap.Follows Ignorable := by
  intro text changed rest alike skipped
  induction skipped generalizing changed with
  | none => exact ⟨changed, alike, .none⟩
  | separator separates more ih =>
    obtain ⟨_, rfl, past⟩ := alike.token (separator_token separates)
    obtain ⟨changedRest, alike, more⟩ := ih past
    exact ⟨changedRest, alike, .separator separates more⟩
  | comment inLine ends more ih =>
    obtain ⟨_, rfl, past, ends⟩ := alike.comment inLine ends
    obtain ⟨changedRest, alike, more⟩ := ih past
    exact ⟨changedRest, alike, .comment inLine ends more⟩

theorem nameAt (swap : Swap) (name : List Char) :
    swap.Follows fun text rest => NameAt text name rest := by
  intro text changed rest alike found
  cases found with
  | @run first more _ letter others longest =>
    have tokens : ∀ c ∈ first :: more, c ∉ ['(', ')', '"', '#'] := by
      intro c member
      refine nameChar_token ?_
      rcases List.mem_cons.mp member with rfl | later
      · rw [isNameChar, letter, Bool.true_or]
      · exact others c later
    rw [← List.cons_append] at alike
    obtain ⟨changedRest, rfl, past⟩ := alike.tokens tokens
    refine ⟨changedRest, past, .run letter others ?_⟩
    rw [← past.head]
    exact longest

theorem optionalNameAt (swap : Swap) : swap.Follows OptionalNameAt := by
  intro text changed rest alike name
  cases name with
  | absent => exact ⟨changed, alike, .absent⟩
  | present skipped name =>
    obtain ⟨_, alike, skipped⟩ := swap.ignorable alike skipped
    obtain ⟨changedRest, alike, name⟩ := swap.nameAt _ alike name
    exact ⟨changedRest, alike, .present skipped name⟩

theorem argumentsAt (swap : Swap) : swap.Follows ArgumentsAt := by
  intro text changed rest alike arguments
  cases arguments with
  | absent => exact ⟨changed, alike, .absent⟩
  | present skipped delimited =>
    obtain ⟨_, alike, skipped⟩ := swap.ignorable alike skipped
    obtain ⟨_, changedRest, alike, delimited⟩ := alike.group delimited
    exact ⟨changedRest, alike, .present skipped delimited⟩

theorem directivesAt (swap : Swap) : swap.Follows DirectivesAt := by
  intro text changed rest alike directives
  induction directives generalizing changed with
  | none => exact ⟨changed, alike, .none⟩
  | more skipped name arguments others ih =>
    obtain ⟨_, alike, skipped⟩ := swap.ignorable alike skipped
    obtain ⟨_, rfl, past⟩ := alike.token (by decide)
    obtain ⟨_, alike, name⟩ := swap.nameAt _ past name
    obtain ⟨_, alike, arguments⟩ := swap.argumentsAt alike arguments
    obtain ⟨changedRest, alike, others⟩ := ih alike
    exact ⟨changedRest, alike, .more skipped name arguments others⟩

theorem secondNameAt (swap : Swap) (found : Option (List Char)) :
    swap.Follows fun text rest => SecondNameAt text found rest := by
  intro text changed rest alike second
  cases second with
  | absent => exact ⟨changed, alike, .absent⟩
  | present skipped between name =>
    obtain ⟨_, alike, skipped⟩ := swap.ignorable alike skipped
    obtain ⟨_, rfl, past⟩ := alike.token (by decide)
    obtain ⟨_, alike, between⟩ := swap.ignorable past between
    obtain ⟨changedRest, alike, name⟩ := swap.nameAt _ alike name
    exact ⟨changedRest, alike, .present skipped between name⟩

theorem headAt (swap : Swap) (first : List Char) (second : Option (List Char)) :
    swap.Follows fun text rest => HeadAt text first second rest := by
  intro text changed rest alike head
  cases head with
  | head name second arguments directives =>
    obtain ⟨_, alike, name⟩ := swap.nameAt _ alike name
    obtain ⟨_, alike, second⟩ := swap.secondNameAt _ alike second
    obtain ⟨_, alike, arguments⟩ := swap.argumentsAt alike arguments
    obtain ⟨changedRest, alike, directives⟩ := swap.directivesAt alike directives
    exact ⟨changedRest, alike, .head name second arguments directives⟩

mutual

theorem selectionAt (swap : Swap) {text changed rest : List Char} {tree : Selection} :
    swap.Alike text changed → SelectionAt text tree rest →
      ∃ changedRest, swap.Alike rest changedRest ∧ SelectionAt changed tree changedRest
  | alike, .leaf head => by
    obtain ⟨changedRest, alike, head⟩ := swap.headAt _ _ alike head
    exact ⟨changedRest, alike, .leaf head⟩
  | alike, .nested head skipped set => by
    obtain ⟨_, alike, head⟩ := swap.headAt _ _ alike head
    obtain ⟨_, alike, skipped⟩ := swap.ignorable alike skipped
    obtain ⟨changedRest, alike, set⟩ := swap.setAt alike set
    exact ⟨changedRest, alike, .nested head skipped set⟩

theorem setAt (swap : Swap) {text changed rest : List Char} {trees : List Selection} :
    swap.Alike text changed → SetAt text trees rest →
      ∃ changedRest, swap.Alike rest changedRest ∧ SetAt changed trees changedRest
  | alike, .braces members skipped => by
    obtain ⟨_, rfl, past⟩ := alike.token (by decide)
    obtain ⟨_, alike, members⟩ := swap.selectionsAt past members
    obtain ⟨_, alike, skipped⟩ := swap.ignorable alike skipped
    obtain ⟨changedRest, rfl, past⟩ := alike.token (by decide)
    exact ⟨changedRest, past, .braces members skipped⟩

theorem selectionsAt (swap : Swap) {text changed rest : List Char} {trees : List Selection} :
    swap.Alike text changed → SelectionsAt text trees rest →
      ∃ changedRest, swap.Alike rest changedRest ∧ SelectionsAt changed trees changedRest
  | alike, .none => ⟨changed, alike, .none⟩
  | alike, .more skipped one later => by
    obtain ⟨_, alike, skipped⟩ := swap.ignorable alike skipped
    obtain ⟨_, alike, one⟩ := swap.selectionAt alike one
    obtain ⟨changedRest, alike, later⟩ := swap.selectionsAt alike later
    exact ⟨changedRest, alike, .more skipped one later⟩

end

theorem headerAt (swap : Swap) : swap.Follows HeaderAt := by
  intro text changed rest alike header
  cases header with
  | absent => exact ⟨changed, alike, .absent⟩
  | present name arguments directives =>
    obtain ⟨_, rfl, past⟩ := alike.tokens fun c member =>
      nameChar_token (List.all_eq_true.mp (by decide) c member)
    obtain ⟨_, alike, name⟩ := swap.optionalNameAt past name
    obtain ⟨_, alike, arguments⟩ := swap.argumentsAt alike arguments
    obtain ⟨changedRest, alike, directives⟩ := swap.directivesAt alike directives
    exact ⟨changedRest, alike, .present name arguments directives⟩

theorem Alike.document {text changed : List Char} {found : List Selection}
    (alike : swap.Alike text changed) (document : Document text found) :
    Document changed found := by
  obtain ⟨before, header, between, set, after⟩ := document
  obtain ⟨_, alike, before⟩ := swap.ignorable alike before
  obtain ⟨_, alike, header⟩ := swap.headerAt alike header
  obtain ⟨_, alike, between⟩ := swap.ignorable alike between
  obtain ⟨_, alike, set⟩ := swap.setAt alike set
  obtain ⟨left, alike, after⟩ := swap.ignorable alike after
  have nothing : left = [] := List.head?_eq_none_iff.mp alike.head.symm
  subst nothing
  exact .operation before header between set after

theorem Alike.document_iff {text changed : List Char} {found : List Selection}
    (alike : swap.Alike text changed) : Document text found ↔ Document changed found :=
  ⟨alike.document, alike.symm.document⟩

end Swap

end SchemaSampler.Query
