namespace SchemaSampler.Query

def isLetter (c : Char) : Bool := ('a' ≤ c && c ≤ 'z') || ('A' ≤ c && c ≤ 'Z') || c = '_'

def isNameChar (c : Char) : Bool := isLetter c || ('0' ≤ c && c ≤ '9')

def isSeparator (c : Char) : Bool := c = ' ' || c = '\t' || c = '\r' || c = '\n' || c = ','

-- A comment that runs into a CR without LF is none: its number sign is left. `comment` is the
-- text from the number sign on while inside a comment.
def skipIgnored (comment : Option (List Char)) : List Char → List Char
  | [] => []
  | c :: rest =>
    match comment with
    | none =>
      if c = '#' then skipIgnored (some (c :: rest)) rest
      else if isSeparator c then skipIgnored none rest
      else c :: rest
    | some start =>
      if c = '\n' then skipIgnored none rest
      else if c = '\r' then
        match rest with
        | '\n' :: after => skipIgnored none after
        | _ => start
      else skipIgnored comment rest

def ignored (text : List Char) : List Char := skipIgnored none text

def name? : List Char → Option (List Char × List Char)
  | [] => none
  | c :: rest =>
    if isLetter c then some (c :: rest.takeWhile isNameChar, rest.dropWhile isNameChar) else none

inductive Place where
  | plain
  | string (escaped : Bool)
  | block
  deriving DecidableEq, Repr

def closeGroup : Place → Nat → List Char → Option (List Char × List Char)
  | _, _, [] => none
  | .string true, depth, c :: rest => keep [c] (closeGroup (.string false) depth rest)
  | .string false, depth, c :: rest =>
    if c = '\\' then keep [c] (closeGroup (.string true) depth rest)
    else if c = '"' then keep [c] (closeGroup .plain depth rest)
    else keep [c] (closeGroup (.string false) depth rest)
  | .block, depth, '\\' :: '"' :: '"' :: '"' :: rest =>
    keep ['\\', '"', '"', '"'] (closeGroup .block depth rest)
  | .block, depth, '"' :: '"' :: '"' :: rest =>
    keep ['"', '"', '"'] (closeGroup .plain depth rest)
  | .block, depth, c :: rest => keep [c] (closeGroup .block depth rest)
  | .plain, depth, '"' :: '"' :: '"' :: rest =>
    keep ['"', '"', '"'] (closeGroup .block depth rest)
  | .plain, depth, c :: rest =>
    if c = '"' then keep [c] (closeGroup (.string false) depth rest)
    else if c = '(' then keep [c] (closeGroup .plain (depth + 1) rest)
    else if c = ')' then
      if depth ≤ 1 then some ([c], rest) else keep [c] (closeGroup .plain (depth - 1) rest)
    else keep [c] (closeGroup .plain depth rest)
where
  keep (front : List Char) : Option (List Char × List Char) → Option (List Char × List Char)
    | some (inside, rest) => some (front ++ inside, rest)
    | none => none

inductive Group where
  | absent
  | unclosed
  | closed (inside rest : List Char)
  deriving DecidableEq, Repr

def group : List Char → Group
  | '(' :: rest =>
    match closeGroup .plain 1 rest with
    | some (inside, rest) => .closed ('(' :: inside) rest
    | none => .unclosed
  | _ => .absent

end SchemaSampler.Query
