import SchemaSampler.Json.Basic
import SchemaSampler.Decimal.Layout

namespace SchemaSampler.Json

def hexDigit (value : Nat) : Char := (Nat.digitChar (value % 16))

-- U+007F and the line separators stand for themselves.
def escape (c : Char) : List Char :=
  if c = '"' then ['\\', '"']
  else if c = '\\' then ['\\', '\\']
  else if c = '\x08' then ['\\', 'b']
  else if c = '\x0c' then ['\\', 'f']
  else if c = '\n' then ['\\', 'n']
  else if c = '\r' then ['\\', 'r']
  else if c = '\t' then ['\\', 't']
  else if c.toNat < 0x20 then ['\\', 'u', '0', '0', hexDigit (c.toNat / 16), hexDigit c.toNat]
  else [c]

def quoted (text : String) : List Char := '"' :: (text.toList.flatMap escape ++ ['"'])

def intText (value : Int) : List Char :=
  if value < 0 then '-' :: Nat.toDigits 10 value.natAbs else Nat.toDigits 10 value.natAbs

def numberText : Number → List Char
  | .int value => intText value
  | .float value => (Decimal.Layout.json.render value).toList

mutual

def compact : Json → List Char
  | null => ['n', 'u', 'l', 'l']
  | bool true => ['t', 'r', 'u', 'e']
  | bool false => ['f', 'a', 'l', 's', 'e']
  | num number => numberText number
  | str text => quoted text
  | arr items => '[' :: (compactItems items ++ [']'])
  | obj members => '{' :: (compactMembers members ++ ['}'])

def compactItems : List Json → List Char
  | [] => []
  | [item] => compact item
  | item :: rest => compact item ++ ',' :: compactItems rest

def compactMembers : List (String × Json) → List Char
  | [] => []
  | [(name, value)] => quoted name ++ ':' :: compact value
  | (name, value) :: rest => quoted name ++ ':' :: (compact value ++ ',' :: compactMembers rest)

end

def newline (level : Nat) : List Char := '\n' :: List.replicate (2 * level) ' '

mutual

def spread (level : Nat) : Json → List Char
  | arr (item :: rest) =>
    '[' :: (spreadItems (level + 1) (item :: rest) ++ newline level ++ [']'])
  | obj (member :: rest) =>
    '{' :: (spreadMembers (level + 1) (member :: rest) ++ newline level ++ ['}'])
  | null => ['n', 'u', 'l', 'l']
  | bool true => ['t', 'r', 'u', 'e']
  | bool false => ['f', 'a', 'l', 's', 'e']
  | num number => numberText number
  | str text => quoted text
  | arr [] => ['[', ']']
  | obj [] => ['{', '}']

def spreadItems (level : Nat) : List Json → List Char
  | [] => []
  | [item] => newline level ++ spread level item
  | item :: rest => newline level ++ (spread level item ++ ',' :: spreadItems level rest)

def spreadMembers (level : Nat) : List (String × Json) → List Char
  | [] => []
  | [(name, value)] => newline level ++ (quoted name ++ ':' :: ' ' :: spread level value)
  | (name, value) :: rest =>
    newline level ++ (quoted name ++ ':' :: ' ' :: (spread level value ++
      ',' :: spreadMembers level rest))

end

def text (value : Json) : String := String.ofList value.compact

def prettyText (value : Json) : String := String.ofList (value.spread 0)

end SchemaSampler.Json
