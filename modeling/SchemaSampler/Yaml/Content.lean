import SchemaSampler.Yaml.Cursor

namespace SchemaSampler.Yaml

inductive Style where
  | plain
  | singleQuoted
  | doubleQuoted
  | literal
  | folded
  deriving DecidableEq, Repr

structure Gap where
  broken : Bool := false
  blanks : List Char := []
  first : List Char := []
  more : List Char := []

-- A single line break folds to a blank; of several the first is dropped.
def Gap.text (gap : Gap) : List Char :=
  if gap.broken then
    if gap.first.head? = some '\n' then (if gap.more.isEmpty then [' '] else gap.more)
    else gap.first ++ gap.more
  else gap.blanks

-- A tab left of column `floor` is a fault.
def readBreaks (floor : Int) : Nat → Cursor → Option (List Char × Cursor)
  | 0, cursor => some ([], cursor)
  | steps + 1, cursor =>
    let blanks := cursor.rest.takeWhile isBlank
    if (blanks.take (floor - cursor.column).toNat).contains '\t' then none
    else
      let cursor := cursor.skip blanks.length
      if cursor.rest.head?.any isBreak then do
        let (more, next) ← readBreaks floor steps cursor.skipLine
        return (lineText cursor.rest ++ more, next)
      else some ([], cursor)

-- `broken` tells that a line break without text of its own was met before.
def readGap (floor : Int) (broken : Bool) (cursor : Cursor) : Option (Gap × Cursor) :=
  let size := (cursor.rest.takeWhile isGap).length + 1
  if broken then do
    let (more, cursor) ← readBreaks floor size cursor
    return ({ broken, more }, cursor)
  else
    let blanks := cursor.rest.takeWhile isBlank
    let cursor := cursor.skip blanks.length
    if cursor.rest.head?.any isBreak then do
      let (more, next) ← readBreaks floor size cursor.skipLine
      return ({ broken := true, first := lineText cursor.rest, more }, next)
    else some ({ blanks }, cursor)

def isFlowIndicator (c : Char) : Bool := c = ',' || c = '[' || c = ']' || c = '{' || c = '}'

-- A colon before an indicator is a fault inside flow collections.
def plainRun (inFlow : Bool) : List Char → Option (List Char)
  | [] => some []
  | c :: rest =>
    if isGap c then some []
    else if inFlow && c = ':' && rest.head?.any (fun next => isFlowIndicator next || next = '?') then
      none
    else if (c = ':' && startsGap rest) || (inFlow && isFlowIndicator c) then some []
    else (plainRun inFlow rest).map (c :: ·)

def readPlain (inFlow : Bool) (floor : Int) :
    Nat → Cursor → Gap → Option (List Char × Bool × Cursor)
  | 0, cursor, gap => some ([], gap.broken, cursor)
  | steps + 1, cursor, gap =>
    if cursor.atDocumentMarker || cursor.startsWith '#' then some ([], gap.broken, cursor)
    else do
      let run ← plainRun inFlow cursor.rest
      if run.isEmpty then some ([], gap.broken, cursor)
      else
        let front := gap.text ++ run
        let (gap, cursor) ← readGap floor false (cursor.skip run.length)
        if !inFlow && gap.broken && (cursor.column : Int) < floor then
          some (front, gap.broken, cursor)
        else
          let (more, broken, cursor) ← readPlain inFlow floor steps cursor gap
          return (front ++ more, broken, cursor)

inductive Stop where
  | quote
  | gap
  | escapedBreak
  deriving DecidableEq

def escapeChar? (c : Char) : Option Char :=
  match c with
  | '0' => some '\x00'
  | 'a' => some '\x07'
  | 'b' => some '\x08'
  | 't' => some '\t'
  | '\t' => some '\t'
  | 'n' => some '\n'
  | 'v' => some '\x0b'
  | 'f' => some '\x0c'
  | 'r' => some '\r'
  | 'e' => some '\x1b'
  | ' ' => some ' '
  | '"' => some '"'
  | '/' => some '/'
  | '\\' => some '\\'
  | 'N' => some '\u0085'
  | '_' => some '\u00a0'
  | 'L' => some '\u2028'
  | 'P' => some '\u2029'
  | _ => none

def escapeLength? (c : Char) : Option Nat :=
  if c = 'x' then some 2 else if c = 'u' then some 4 else if c = 'U' then some 8 else none

def hexDigit? (c : Char) : Option Nat :=
  if '0' ≤ c ∧ c ≤ '9' then some (c.toNat - '0'.toNat)
  else if 'a' ≤ c ∧ c ≤ 'f' then some (c.toNat - 'a'.toNat + 10)
  else if 'A' ≤ c ∧ c ≤ 'F' then some (c.toNat - 'A'.toNat + 10)
  else none

def hexNumber? (digits : List Char) : Option Nat :=
  digits.foldlM (fun number c => (hexDigit? c).map (number * 16 + ·)) 0

def hexChar? (count : Nat) (text : List Char) : Option Char :=
  if text.length < count then none
  else (hexNumber? (text.take count)).bind fun code =>
    if h : code.isValidChar then some (Char.ofNatAux code h) else none

structure Run where
  text : List Char := []
  taken : Nat := 0
  stop : Stop

def Run.after (front : List Char) (taken : Nat) (run : Run) : Run :=
  { run with text := front ++ run.text, taken := taken + run.taken }

def singleRun : List Char → Run
  | [] => { stop := .gap }
  | '\'' :: '\'' :: rest => (singleRun rest).after ['\''] 2
  | c :: rest =>
    if c = '\'' then { stop := .quote }
    else if isGap c then { stop := .gap }
    else (singleRun rest).after [c] 1

def doubleRun : Nat → List Char → Option Run
  | 0, _ => some { stop := .gap }
  | steps + 1, text =>
    match text with
    | [] => some { stop := .gap }
    | '\\' :: c :: rest =>
      if isBreak c then some { taken := 1, stop := .escapedBreak }
      else do
        let (made, digits) ← match escapeLength? c with
          | some count => (hexChar? count rest).map (·, count)
          | none => (escapeChar? c).map (·, 0)
        return (← doubleRun steps (rest.drop digits)).after [made] (2 + digits)
    | c :: rest =>
      if c = '"' then some { stop := .quote }
      else if isGap c then some { stop := .gap }
      else if c = '\\' then none
      else do return (← doubleRun steps rest).after [c] 1

-- `size` is no less than the number of characters left.
def readQuoted (single : Bool) (size : Nat) : Nat → Cursor → Option (List Char × Cursor)
  | 0, _ => none
  | steps + 1, cursor =>
    if cursor.atDocumentMarker || cursor.rest.isEmpty then none
    else do
      let run ← if single then some (singleRun cursor.rest) else doubleRun size cursor.rest
      let escaped := run.stop = .escapedBreak
      let cursor := cursor.skip run.taken
      let cursor := if escaped then cursor.skipLine else cursor
      if cursor.startsWith (if single then '\'' else '"') then some (run.text, cursor.skip 1)
      else
        let (gap, cursor) ← readGap 0 escaped cursor
        let (more, cursor) ← readQuoted single size steps cursor
        return (run.text ++ gap.text ++ more, cursor)

inductive Chomp where
  | strip
  | clip
  | keep
  deriving DecidableEq

def readHeader (cursor : Cursor) : Option (Option Nat × Chomp × Cursor) :=
  let chomp? (cursor : Cursor) : Option Chomp :=
    if cursor.startsWith '+' then some .keep
    else if cursor.startsWith '-' then some .strip
    else none
  let digit? (cursor : Cursor) : Option Nat :=
    match cursor.rest with
    | c :: _ => if '0' ≤ c ∧ c ≤ '9' then some (c.toNat - '0'.toNat) else none
    | [] => none
  match chomp? cursor with
  | some chomp =>
    let cursor := cursor.skip 1
    match digit? cursor with
    | some 0 => none
    | some indent => some (some indent, chomp, cursor.skip 1)
    | none => some (none, chomp, cursor)
  | none =>
    match digit? cursor with
    | some 0 => none
    | some indent =>
      let cursor := cursor.skip 1
      match chomp? cursor with
      | some chomp => some (some indent, chomp, cursor.skip 1)
      | none => some (some indent, .clip, cursor)
    | none => some (none, .clip, cursor)

-- Without a known indentation all blanks are taken.
def readEmptyLines (indent : Option Nat) : Nat → Cursor → Option (List Char × Nat × Cursor)
  | 0, cursor => some ([], 0, cursor)
  | steps + 1, cursor =>
    let blanks := (cursor.rest.takeWhile (· = ' ')).length
    let cursor := cursor.skip (match indent with
      | some indent => min blanks (indent - cursor.column)
      | none => blanks)
    let inside := match indent with
      | some indent => cursor.column < indent
      | none => true
    if inside && cursor.startsWith '\t' then none
    else if cursor.rest.head?.any isBreak then do
      let (breaks, deepest, next) ← readEmptyLines indent steps cursor.skipLine
      return (lineText cursor.rest ++ breaks, max deepest cursor.column, next)
    else some ([], cursor.column, cursor)

structure Ending where
  lineBreak : List Char := []
  empty : List Char := []
  blankBefore : Bool := false

-- A folded scalar joins two lines that both start with no blank.
def Ending.join (folds blankAfter : Bool) (ending : Ending) : List Char :=
  if folds && ending.lineBreak.head? = some '\n' && !ending.blankBefore && !blankAfter then
    if ending.empty.isEmpty then [' '] else ending.empty
  else ending.lineBreak ++ ending.empty

def readLines (folds : Bool) (indent : Nat) :
    Nat → Cursor → Ending → Option (List Char × Ending × Cursor)
  | 0, cursor, ending => some ([], ending, cursor)
  | steps + 1, cursor, ending =>
    if cursor.column = indent && !cursor.rest.isEmpty then do
      let blank := cursor.rest.head?.any isBlank
      let line := cursor.rest.takeWhile (!isBreak ·)
      let ended := cursor.skip line.length
      let (empty, _, next) ← readEmptyLines (some indent) (steps + 1) ended.skipLine
      let (more, last, next) ←
        readLines folds indent steps next ⟨lineText ended.rest, empty, blank⟩
      return (ending.join folds blank ++ line ++ more, last, next)
    else some ([], ending, cursor)

def readBlock (folds : Bool) (outer : Int) (size : Nat) (cursor : Cursor) :
    Option (List Char × Cursor) := do
  let (given, chomp, cursor) ← readHeader cursor
  let cursor ← cursor.endLine?
  let given := given.map fun indent => (max outer 0).toNat + indent
  let (empty, deepest, cursor) ← readEmptyLines given (size + 1) cursor
  let indent := given.getD (max deepest (max (outer + 1) 1).toNat)
  let (text, last, cursor) ← readLines folds indent (size + 1) cursor { empty }
  let tail := match chomp with
    | .strip => []
    | .clip => last.lineBreak
    | .keep => last.lineBreak ++ last.empty
  return (text ++ tail, cursor)

end SchemaSampler.Yaml
