import SchemaSampler.Yaml.Content
import SchemaSampler.Yaml.Tag

-- A key without a mark is found only when its colon is met.

namespace SchemaSampler.Yaml

inductive Token where
  | streamEnd
  | version (major minor : Nat)
  | tagDirective (handle : List Char) (start : Bytes)
  | documentStart
  | documentEnd
  | blockSeqStart
  | blockMapStart
  | blockEnd
  | flowSeqStart
  | flowSeqEnd
  | flowMapStart
  | flowMapEnd
  | blockEntry
  | flowEntry
  | key
  | value
  | alias (name : List Char)
  | anchor (name : List Char)
  | tag (handle : List Char) (suffix : Bytes)
  | scalar (style : Style) (text : List Char)
  deriving DecidableEq

-- A token that turns out to start a key if a colon follows it on its line. In a
-- block mapping such a token must be a key.
structure Candidate where
  token : Nat
  index : Nat
  line : Nat
  column : Nat
  required : Bool

structure Lexer where
  cursor : Cursor
  size : Nat
  flow : Nat := 0
  indent : Int := -1
  outer : List Int := []
  keyAllowed : Bool := true
  -- the candidate of each open flow collection and of the block around them
  candidates : List (Option Candidate) := [none]
  made : List Token := []
  count : Nat := 0
  ended : Bool := false

namespace Lexer

def emit (lexer : Lexer) (token : Token) : Lexer :=
  { lexer with made := token :: lexer.made, count := lexer.count + 1 }

def insertAt (lexer : Lexer) (place : Nat) (token : Token) : Lexer :=
  let later := lexer.count - place
  { lexer with
    made := lexer.made.take later ++ token :: lexer.made.drop later, count := lexer.count + 1 }

def firstTokens (lexer : Lexer) (count : Nat) : List Token :=
  (lexer.made.drop (lexer.count - count)).reverse

-- A candidate lasts for one line and 1024 bytes.
def Candidate.isStale (cursor : Cursor) (candidate : Candidate) : Bool :=
  candidate.line < cursor.line || candidate.index + 1024 < cursor.index

def dropStale (lexer : Lexer) : Option Lexer := do
  let kept ← lexer.candidates.mapM fun
    | some candidate =>
      if Candidate.isStale lexer.cursor candidate then
        if candidate.required then none else some none
      else some (some candidate)
    | none => some none
  return { lexer with candidates := kept }

def dropCandidate (lexer : Lexer) : Option Lexer :=
  match lexer.candidates with
  | some candidate :: rest =>
    if candidate.required then none else some { lexer with candidates := none :: rest }
  | _ => some lexer

def markCandidate (lexer : Lexer) : Option Lexer :=
  if lexer.keyAllowed then do
    let lexer ← lexer.dropCandidate
    let cursor := lexer.cursor
    let candidate : Candidate :=
      { token := lexer.count, index := cursor.index, line := cursor.line,
        column := cursor.column
        required := lexer.flow = 0 && lexer.indent = (cursor.column : Int) }
    return { lexer with candidates := some candidate :: lexer.candidates.tail }
  else some lexer

def openBlock (lexer : Lexer) (column : Nat) (place : Option Nat) (token : Token) : Lexer :=
  if lexer.flow = 0 ∧ lexer.indent < (column : Int) then
    let lexer := { lexer with indent := column, outer := lexer.indent :: lexer.outer }
    match place with
    | some place => lexer.insertAt place token
    | none => lexer.emit token
  else lexer

def closeBlocks (column : Int) (indent : Int) : List Int → Int × List Int × Nat
  | [] => (indent, [], 0)
  | next :: outer =>
    if column < indent then
      let (indent, outer, closed) := closeBlocks column next outer
      (indent, outer, closed + 1)
    else (indent, next :: outer, 0)

def closeTo (lexer : Lexer) (column : Int) : Lexer :=
  if lexer.flow = 0 then
    let (indent, outer, closed) := closeBlocks column lexer.indent lexer.outer
    { lexer with
      indent, outer, made := List.replicate closed .blockEnd ++ lexer.made
      count := lexer.count + closed }
  else lexer

-- Tabs count as blanks where no key may start. A byte order mark may start a line.
def skipGap : Nat → Lexer → Lexer
  | 0, lexer => lexer
  | steps + 1, lexer =>
    let cursor := lexer.cursor
    let cursor := if cursor.column = 0 && cursor.startsWith '\ufeff' then cursor.skip 1 else cursor
    let tabs := lexer.flow ≠ 0 || !lexer.keyAllowed
    let cursor := cursor.skipWhile fun c => c = ' ' || (tabs && c = '\t')
    let cursor := if cursor.startsWith '#' then cursor.skipWhile (!isBreak ·) else cursor
    if !cursor.rest.isEmpty && startsBreak cursor.rest then
      skipGap steps { lexer with
        cursor := cursor.skipLine
        keyAllowed := lexer.flow = 0 || lexer.keyAllowed }
    else { lexer with cursor }

def readStreamEnd (lexer : Lexer) : Option Lexer := do
  let cursor := lexer.cursor
  let cursor := if cursor.column = 0 then cursor
    else { cursor with line := cursor.line + 1, column := 0 }
  let lexer ← ({ lexer with cursor }.closeTo (-1)).dropCandidate
  return { (lexer.emit .streamEnd) with keyAllowed := false, ended := true }

def readNumber? (cursor : Cursor) : Option (Nat × Cursor) :=
  let digits := cursor.rest.takeWhile fun c => '0' ≤ c && c ≤ '9'
  if digits.isEmpty ∨ 9 < digits.length then none
  else some (digits.foldl (fun number c => 10 * number + (c.toNat - '0'.toNat)) 0,
    cursor.skip digits.length)

def readHandle? (cursor : Cursor) : Option (List Char × Cursor) :=
  match cursor.rest with
  | '!' :: rest =>
    let word := rest.takeWhile isWordChar
    let cursor := cursor.skip (1 + word.length)
    if cursor.startsWith '!' then some ('!' :: word ++ ['!'], cursor.skip 1)
    else some ('!' :: word, cursor)
  | _ => none

def isUriChar (verbatim : Bool) (c : Char) : Bool :=
  isWordChar c || [';', '/', '?', ':', '@', '&', '=', '+', '$', '.', '!', '~', '*', '\'', '(', ')'].contains c ||
    (verbatim && (c = ',' || c = '[' || c = ']'))

def sequenceLength? (byte : Nat) : Option Nat :=
  if byte < 0x80 then some 1
  else if byte / 0x20 = 6 then some 2
  else if byte / 0x10 = 14 then some 3
  else if byte / 0x08 = 30 then some 4
  else none

def escapedByte? : List Char → Option (Nat × List Char)
  | '%' :: a :: b :: rest => (hexNumber? [a, b]).map (·, rest)
  | _ => none

def escapedTail : Nat → List Char → Option (Bytes × List Char)
  | 0, text => some ([], text)
  | count + 1, text => do
    let (byte, rest) ← escapedByte? text
    if byte / 0x40 = 2 then
      let (bytes, rest) ← escapedTail count rest
      return (byte.toUInt8 :: bytes, rest)
    else none

def escapedSequence? (text : List Char) : Option (Bytes × List Char) := do
  let (byte, rest) ← escapedByte? text
  let length ← sequenceLength? byte
  let (bytes, rest) ← escapedTail (length - 1) rest
  return (byte.toUInt8 :: bytes, rest)

def uriRun (verbatim : Bool) : Nat → List Char → Option (Bytes × Nat)
  | 0, _ => some ([], 0)
  | steps + 1, text =>
    match text with
    | [] => some ([], 0)
    | c :: rest =>
      if c = '%' then do
        let (bytes, rest) ← escapedSequence? (c :: rest)
        let (run, taken) ← uriRun verbatim steps rest
        return (bytes ++ run, 3 * bytes.length + taken)
      else if isUriChar verbatim c then
        (uriRun verbatim steps rest).map fun (run, taken) => (c.toUInt8 :: run, 1 + taken)
      else some ([], 0)

def readUri? (verbatim : Bool) (size : Nat) (cursor : Cursor) : Option (Bytes × Cursor) :=
  (uriRun verbatim size cursor.rest).map fun (run, taken) => (run, cursor.skip taken)

def readVersion? (cursor : Cursor) : Option (Token × Cursor) := do
  let (major, cursor) ← readNumber? (cursor.skipWhile isBlank)
  if cursor.startsWith '.' then
    let (minor, cursor) ← readNumber? (cursor.skip 1)
    return (.version major minor, cursor)
  else none

def readTagDirective? (size : Nat) (cursor : Cursor) : Option (Token × Cursor) := do
  let (handle, cursor) ← readHandle? (cursor.skipWhile isBlank)
  let closed := handle = ['!'] || (handle.length ≠ 1 && handle.getLast? = some '!')
  if closed && cursor.rest.head?.any isBlank then
    let (start, cursor) ← readUri? true size (cursor.skipWhile isBlank)
    if !start.isEmpty && startsGap cursor.rest then return (.tagDirective handle start, cursor)
    else none
  else none

def readDirective (lexer : Lexer) : Option Lexer := do
  let lexer ← (lexer.closeTo (-1)).dropCandidate
  let start := lexer.cursor.skip 1
  let name := start.rest.takeWhile isWordChar
  let cursor := start.skip name.length
  if name.isEmpty || !startsGap cursor.rest then none
  else
    let (token, cursor) ←
      if name = "YAML".toList then readVersion? cursor
      else if name = "TAG".toList then readTagDirective? lexer.size cursor
      else none
    let cursor ← cursor.endLine?
    return { (lexer.emit token) with cursor, keyAllowed := false }

def readMarker (lexer : Lexer) (token : Token) : Option Lexer := do
  let lexer ← (lexer.closeTo (-1)).dropCandidate
  return { (lexer.emit token) with cursor := lexer.cursor.skip 3, keyAllowed := false }

def readFlowStart (lexer : Lexer) (token : Token) : Option Lexer := do
  let lexer ← lexer.markCandidate
  return { (lexer.emit token) with
    cursor := lexer.cursor.skip 1, keyAllowed := true, flow := lexer.flow + 1
    candidates := none :: lexer.candidates }

def readFlowEnd (lexer : Lexer) (token : Token) : Option Lexer := do
  let lexer ← lexer.dropCandidate
  let candidates := if lexer.flow = 0 then lexer.candidates else lexer.candidates.tail
  return { (lexer.emit token) with
    cursor := lexer.cursor.skip 1, keyAllowed := false, flow := lexer.flow - 1, candidates }

def readFlowEntry (lexer : Lexer) : Option Lexer := do
  let lexer ← lexer.dropCandidate
  return { (lexer.emit .flowEntry) with cursor := lexer.cursor.skip 1, keyAllowed := true }

def readBlockEntry (lexer : Lexer) : Option Lexer := do
  if lexer.flow = 0 ∧ !lexer.keyAllowed then none
  else
    let lexer ← (lexer.openBlock lexer.cursor.column none .blockSeqStart).dropCandidate
    return { (lexer.emit .blockEntry) with cursor := lexer.cursor.skip 1, keyAllowed := true }

def readKey (lexer : Lexer) : Option Lexer := do
  if lexer.flow = 0 ∧ !lexer.keyAllowed then none
  else
    let lexer ← (lexer.openBlock lexer.cursor.column none .blockMapStart).dropCandidate
    return { (lexer.emit .key) with
      cursor := lexer.cursor.skip 1, keyAllowed := lexer.flow = 0 }

def readValue (lexer : Lexer) : Option Lexer :=
  match lexer.candidates with
  | some candidate :: rest =>
    let lexer := lexer.insertAt candidate.token .key
    let lexer := lexer.openBlock candidate.column (some candidate.token) .blockMapStart
    some { (lexer.emit .value) with
      cursor := lexer.cursor.skip 1, keyAllowed := false, candidates := none :: rest }
  | _ =>
    if lexer.flow = 0 ∧ !lexer.keyAllowed then none
    else
      let lexer := lexer.openBlock lexer.cursor.column none .blockMapStart
      some { (lexer.emit .value) with
        cursor := lexer.cursor.skip 1, keyAllowed := lexer.flow = 0 }

def endsAnchor : List Char → Bool
  | [] => true
  | c :: _ => isGap c || ['?', ':', ',', ']', '}', '%', '@', '\x60'].contains c

def readAnchor (lexer : Lexer) (token : List Char → Token) : Option Lexer := do
  let lexer ← lexer.markCandidate
  let start := lexer.cursor.skip 1
  let name := start.rest.takeWhile isWordChar
  let cursor := start.skip name.length
  if name.isEmpty || !endsAnchor cursor.rest then none
  else return { (lexer.emit (token name)) with cursor, keyAllowed := false }

def readTagParts? (size : Nat) (cursor : Cursor) : Option (List Char × Bytes × Cursor) :=
  match cursor.rest with
  | '!' :: '<' :: _ => do
    let (suffix, cursor) ← readUri? true size (cursor.skip 2)
    if !suffix.isEmpty && cursor.startsWith '>' then return ([], suffix, cursor.skip 1) else none
  | _ => do
    let (handle, cursor) ← readHandle? cursor
    let (suffix, cursor) ← readUri? false size cursor
    if handle.length ≠ 1 ∧ handle.getLast? = some '!' then
      if suffix.isEmpty then none else return (handle, suffix, cursor)
    else
      let suffix := untilZero (handle.tail.map Char.toUInt8 ++ suffix)
      if suffix.isEmpty then return ([], Tag.bare, cursor) else return (['!'], suffix, cursor)

def readTag (lexer : Lexer) : Option Lexer := do
  let lexer ← lexer.markCandidate
  let (handle, suffix, cursor) ← readTagParts? lexer.size lexer.cursor
  if startsGap cursor.rest || (lexer.flow ≠ 0 && cursor.startsWith ',') then
    return { (lexer.emit (.tag handle suffix)) with cursor, keyAllowed := false }
  else none

def readBlockScalar (lexer : Lexer) (style : Style) : Option Lexer := do
  let lexer ← lexer.dropCandidate
  let (text, cursor) ← readBlock (style = .folded) lexer.indent lexer.size (lexer.cursor.skip 1)
  return { (lexer.emit (.scalar style text)) with cursor, keyAllowed := true }

def readQuotedScalar (lexer : Lexer) (style : Style) : Option Lexer := do
  let lexer ← lexer.markCandidate
  let start := lexer.cursor.skip 1
  let (text, cursor) ←
    readQuoted (style = .singleQuoted) lexer.size (lexer.size + 1) start
  return { (lexer.emit (.scalar style text)) with cursor, keyAllowed := false }

def readPlainScalar (lexer : Lexer) : Option Lexer := do
  let lexer ← lexer.markCandidate
  let start := lexer.cursor
  let (text, broken, cursor) ←
    readPlain (lexer.flow ≠ 0) (lexer.indent + 1) (lexer.size + 1) start {}
  return { (lexer.emit (.scalar .plain text)) with cursor, keyAllowed := broken }

def isIndicator (c : Char) : Bool :=
  ['-', '?', ':', ',', '[', ']', '{', '}', '#', '&', '*', '!', '|', '>', '\'', '"', '%', '@', '\x60'].contains c

def readToken (lexer : Lexer) : Option Lexer :=
  let cursor := lexer.cursor
  let inFlow := lexer.flow ≠ 0
  match cursor.rest with
  | [] => lexer.readStreamEnd
  | c :: rest =>
    let blankNext := startsGap rest
    if cursor.column = 0 ∧ c = '%' then lexer.readDirective
    else if cursor.atMarker '-' then lexer.readMarker .documentStart
    else if cursor.atMarker '.' then lexer.readMarker .documentEnd
    else if c = '[' then lexer.readFlowStart .flowSeqStart
    else if c = '{' then lexer.readFlowStart .flowMapStart
    else if c = ']' then lexer.readFlowEnd .flowSeqEnd
    else if c = '}' then lexer.readFlowEnd .flowMapEnd
    else if c = ',' then lexer.readFlowEntry
    else if c = '-' ∧ blankNext then lexer.readBlockEntry
    else if c = '?' ∧ (inFlow ∨ blankNext) then lexer.readKey
    else if c = ':' ∧ (inFlow ∨ blankNext) then lexer.readValue
    else if c = '*' then lexer.readAnchor .alias
    else if c = '&' then lexer.readAnchor .anchor
    else if c = '!' then lexer.readTag
    else if c = '|' ∧ !inFlow then lexer.readBlockScalar .literal
    else if c = '>' ∧ !inFlow then lexer.readBlockScalar .folded
    else if c = '\'' then lexer.readQuotedScalar .singleQuoted
    else if c = '"' then lexer.readQuotedScalar .doubleQuoted
    else if !(isGap c || isIndicator c) || c = '-' || (!inFlow && (c = '?' || c = ':')) then
      lexer.readPlainScalar
    else none

def next (lexer : Lexer) : Option Lexer := do
  let lexer ← (skipGap (lexer.size + 1) lexer).dropStale
  (lexer.closeTo lexer.cursor.column).readToken

-- Tokens before the first candidate are settled: nothing more is put before them.
def settled (lexer : Lexer) : Nat :=
  lexer.candidates.foldl (fun count candidate =>
    match candidate with
    | some candidate => min count candidate.token
    | none => count) lexer.count

-- After a fault only the tokens that were settled before it are left.
def run : Nat → Nat → Lexer → List Token
  | 0, count, lexer => lexer.firstTokens count
  | steps + 1, count, lexer =>
    match lexer.next.map fun lexer => (lexer, lexer.dropStale) with
    | some (_, some lexer) =>
      if lexer.ended then lexer.firstTokens lexer.count else run steps lexer.settled lexer
    | _ => lexer.firstTokens count

end Lexer

-- A character that may not stand in a text spoils all of it.
def tokens (text : List Char) : List Token :=
  if text.all isAllowed then
    Lexer.run (text.length + 1) 0 { cursor := { rest := text }, size := text.length }
  else []

end SchemaSampler.Yaml
