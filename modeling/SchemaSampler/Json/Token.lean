import SchemaSampler.Json.Literal

namespace SchemaSampler.Json

-- A scalar as written. Text with an unpaired surrogate and numbers beyond
-- binary64 have no value; they may stand only where nothing is read.
inductive Leaf where
  | null
  | bool (value : Bool)
  | num (number : Option Number)
  | str (text : Option String)

inductive Token where
  | beginArray
  | endArray
  | beginObject
  | endObject
  | comma
  | colon
  | leaf (leaf : Leaf)

def isSpace (c : Char) : Bool := c = ' ' || c = '\n' || c = '\t' || c = '\r'

def hexValue? (c : Char) : Option Nat :=
  if '0' ≤ c ∧ c ≤ '9' then some (c.toNat - '0'.toNat)
  else if 'a' ≤ c ∧ c ≤ 'f' then some (c.toNat - 'a'.toNat + 10)
  else if 'A' ≤ c ∧ c ≤ 'F' then some (c.toNat - 'A'.toNat + 10)
  else none

def hexUnit? (a b c d : Char) : Option Nat := do
  let a ← hexValue? a
  let b ← hexValue? b
  let c ← hexValue? c
  let d ← hexValue? d
  return ((a * 16 + b) * 16 + c) * 16 + d

inductive Piece where
  | char (c : Char)
  | unit (code : Nat)

def shortEscape? (c : Char) : Option Char :=
  if c = '"' then some '"'
  else if c = '\\' then some '\\'
  else if c = '/' then some '/'
  else if c = 'b' then some '\x08'
  else if c = 'f' then some '\x0c'
  else if c = 'n' then some '\n'
  else if c = 'r' then some '\r'
  else if c = 't' then some '\t'
  else none

def stringPieces : List Char → Option (List Piece × List Char)
  | [] => none
  | '"' :: rest => some ([], rest)
  | '\\' :: 'u' :: a :: b :: c :: d :: rest => do
    let code ← hexUnit? a b c d
    let (pieces, rest) ← stringPieces rest
    return (.unit code :: pieces, rest)
  | '\\' :: c :: rest => do
    let c ← shortEscape? c
    let (pieces, rest) ← stringPieces rest
    return (.char c :: pieces, rest)
  | c :: rest =>
    if c = '\\' ∨ c.toNat < 0x20 then none
    else do
      let (pieces, rest) ← stringPieces rest
      return (.char c :: pieces, rest)

def isHighSurrogate (code : Nat) : Bool := 0xD800 ≤ code && code ≤ 0xDBFF

def isLowSurrogate (code : Nat) : Bool := 0xDC00 ≤ code && code ≤ 0xDFFF

def joinPieces : List Piece → Option (List Char)
  | [] => some []
  | .char c :: rest => (joinPieces rest).map (c :: ·)
  | .unit high :: .unit low :: rest =>
    if isHighSurrogate high && isLowSurrogate low then
      let code := 0x10000 + (high - 0xD800) * 0x400 + (low - 0xDC00)
      (joinPieces rest).map (Char.ofNat code :: ·)
    else if isHighSurrogate high || isLowSurrogate high then none
    else (joinPieces (.unit low :: rest)).map (Char.ofNat high :: ·)
  | .unit code :: rest =>
    if isHighSurrogate code || isLowSurrogate code then none
    else (joinPieces rest).map (Char.ofNat code :: ·)

def fraction? : List Char → Option (Option (List Char) × List Char)
  | '.' :: rest =>
    let digits := rest.takeWhile Decimal.isDigit
    if digits.isEmpty then none else some (some digits, rest.dropWhile Decimal.isDigit)
  | rest => some (none, rest)

def power? : List Char → Option (Option Int × List Char)
  | c :: rest =>
    if c = 'e' ∨ c = 'E' then
      let (negative, rest) := Decimal.splitSign rest
      let digits := rest.takeWhile Decimal.isDigit
      let size : Int := Decimal.appendDigits 0 digits
      if digits.isEmpty then none
      else some (some (if negative then -size else size), rest.dropWhile Decimal.isDigit)
    else some (none, c :: rest)
  | [] => some (none, [])

def number? (negative : Bool) (text : List Char) : Option (Leaf × List Char) := do
  let whole := text.takeWhile Decimal.isDigit
  let rest := text.dropWhile Decimal.isDigit
  if whole.isEmpty ∨ (whole.head? = some '0' ∧ whole.length ≠ 1) then none
  else
    let (fraction, rest) ← fraction? rest
    let (power, rest) ← power? rest
    return (.num (Literal.number? ⟨negative, whole, fraction, power⟩), rest)

def word? (word : List Char) (leaf : Leaf) (text : List Char) : Option (Token × List Char) :=
  if word.isPrefixOf text then some (.leaf leaf, text.drop word.length) else none

def token? : List Char → Option (Token × List Char)
  | [] => none
  | '[' :: rest => some (.beginArray, rest)
  | ']' :: rest => some (.endArray, rest)
  | '{' :: rest => some (.beginObject, rest)
  | '}' :: rest => some (.endObject, rest)
  | ',' :: rest => some (.comma, rest)
  | ':' :: rest => some (.colon, rest)
  | '"' :: rest => (stringPieces rest).map fun (pieces, rest) =>
      (.leaf (.str ((joinPieces pieces).map String.ofList)), rest)
  | '-' :: rest => (number? true rest).map fun (leaf, rest) => (.leaf leaf, rest)
  | c :: rest =>
    if c = 'n' then word? ['u', 'l', 'l'] .null rest
    else if c = 't' then word? ['r', 'u', 'e'] (.bool true) rest
    else if c = 'f' then word? ['a', 'l', 's', 'e'] (.bool false) rest
    else (number? false (c :: rest)).map fun (leaf, rest) => (.leaf leaf, rest)

-- Every token takes a character, so `steps` may be the length of the text.
def tokens : Nat → List Char → List Token × Bool
  | 0, text => ([], (text.dropWhile isSpace).isEmpty)
  | steps + 1, text =>
    match text.dropWhile isSpace with
    | [] => ([], true)
    | start =>
      match token? start with
      | none => ([], false)
      | some (token, rest) =>
        let (others, ended) := tokens steps rest
        (token :: others, ended)

end SchemaSampler.Json
