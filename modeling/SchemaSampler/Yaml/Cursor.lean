namespace SchemaSampler.Yaml

-- The index counts bytes of UTF-8, the column counts characters.
structure Cursor where
  rest : List Char
  index : Nat := 0
  line : Nat := 0
  column : Nat := 0

def isBreak (c : Char) : Bool :=
  c = '\n' || c = '\r' || c = '\u0085' || c = '\u2028' || c = '\u2029'

def isBlank (c : Char) : Bool := c = ' ' || c = '\t'

def isGap (c : Char) : Bool := isBlank c || isBreak c

def isWordChar (c : Char) : Bool :=
  ('0' ≤ c && c ≤ '9') || ('A' ≤ c && c ≤ 'Z') || ('a' ≤ c && c ≤ 'z') || c = '_' || c = '-'

def isAllowed (c : Char) : Bool :=
  let code := c.toNat
  code = 0x09 || code = 0x0A || code = 0x0D || (0x20 ≤ code && code ≤ 0x7E) || code = 0x85 ||
    (0xA0 ≤ code && code ≤ 0xD7FF) || (0xE000 ≤ code && code ≤ 0xFFFD) || 0x10000 ≤ code

def startsGap : List Char → Bool
  | [] => true
  | c :: _ => isGap c

def startsBreak : List Char → Bool
  | [] => true
  | c :: _ => isBreak c

-- A line break as it stands in a value: LF, except for the two separators.
def lineText : List Char → List Char
  | '\u2028' :: _ => ['\u2028']
  | '\u2029' :: _ => ['\u2029']
  | c :: _ => if isBreak c then ['\n'] else []
  | [] => []

def byteLength (text : List Char) : Nat :=
  text.foldl (fun length c => length + c.utf8Size) 0

namespace Cursor

def skip (cursor : Cursor) (count : Nat) : Cursor where
  rest := cursor.rest.drop count
  index := cursor.index + byteLength (cursor.rest.take count)
  line := cursor.line
  column := cursor.column + count

def skipLine (cursor : Cursor) : Cursor :=
  match cursor.rest with
  | '\r' :: '\n' :: rest => ⟨rest, cursor.index + 2, cursor.line + 1, 0⟩
  | c :: rest => if isBreak c then ⟨rest, cursor.index + c.utf8Size, cursor.line + 1, 0⟩ else cursor
  | [] => cursor

def skipWhile (cursor : Cursor) (inClass : Char → Bool) : Cursor :=
  cursor.skip (cursor.rest.takeWhile inClass).length

def startsWith (cursor : Cursor) (c : Char) : Bool := cursor.rest.head? = some c

def atMarker (cursor : Cursor) (mark : Char) : Bool :=
  cursor.column = 0 &&
    match cursor.rest with
    | a :: b :: c :: rest => a = mark && b = mark && c = mark && startsGap rest
    | _ => false

def atDocumentMarker (cursor : Cursor) : Bool := cursor.atMarker '-' || cursor.atMarker '.'

def endLine? (cursor : Cursor) : Option Cursor :=
  let cursor := cursor.skipWhile isBlank
  let cursor := if cursor.startsWith '#' then cursor.skipWhile (!isBreak ·) else cursor
  if startsBreak cursor.rest then some cursor.skipLine else none

end Cursor

end SchemaSampler.Yaml
