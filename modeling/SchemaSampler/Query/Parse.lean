import SchemaSampler.Query.Lexical
import SchemaSampler.Selection

namespace SchemaSampler.Query

inductive Reason where
  | expectedBrace
  | expectedName
  | unclosedGroup
  | spread
  | trailing
  deriving DecidableEq, Repr

-- A fault is placed by the text that is left.
structure Fault where
  reason : Reason
  rest : List Char

def fault (reason : Reason) (rest : List Char) : Except Fault α := .error ⟨reason, rest⟩

def skipGroup (text : List Char) : Except Fault (List Char) :=
  match group (ignored text) with
  | .absent => .ok text
  | .unclosed => fault .unclosedGroup (ignored text)
  | .closed _ rest => .ok rest

-- Every directive takes a character, so `steps` may be the length of the text.
def skipDirectives : Nat → List Char → Except Fault (List Char)
  | 0, text => .ok text
  | steps + 1, text =>
    match ignored text with
    | '@' :: rest =>
      match name? rest with
      | none => fault .expectedName rest
      | some (_, rest) => do skipDirectives steps (← skipGroup rest)
    | _ => .ok text

def secondName (text : List Char) : Except Fault (Option (List Char) × List Char) :=
  match ignored text with
  | ':' :: rest =>
    match name? (ignored rest) with
    | some (second, rest) => .ok (some second, rest)
    | none => fault .expectedName (ignored rest)
  | _ => .ok (none, text)

mutual

-- `steps` bounds the nested calls; the length of the text is enough.
def selection : Nat → List Char → Except Fault (Selection × List Char)
  | 0, text => fault .expectedName text
  | steps + 1, text =>
    match name? text with
    | none => fault .expectedName text
    | some (first, rest) => do
      let (second, rest) ← secondName rest
      let rest ← skipGroup rest
      let rest ← skipDirectives steps rest
      let made (nested : Option (List Selection)) : Selection :=
        match second with
        | some second => ⟨String.ofList second, some (String.ofList first), nested⟩
        | none => ⟨String.ofList first, none, nested⟩
      match ignored rest with
      | '{' :: inside =>
        let (nested, rest) ← selections steps inside
        return (made (some nested), rest)
      | _ => return (made none, rest)

def selections : Nat → List Char → Except Fault (List Selection × List Char)
  | 0, text => fault .expectedName text
  | steps + 1, text =>
    match ignored text with
    | '}' :: rest => .ok ([], rest)
    | '.' :: '.' :: '.' :: rest => fault .spread ('.' :: '.' :: '.' :: rest)
    | rest => do
      let (first, rest) ← selection steps rest
      let (others, rest) ← selections steps rest
      return (first :: others, rest)

end

def skipHeader (text : List Char) : Except Fault (List Char) := do
  let rest := match name? (ignored text) with
    | some (_, rest) => rest
    | none => text
  let rest ← skipGroup rest
  skipDirectives rest.length rest

def keyword : List Char := "query".toList

def operation (text : List Char) : Except Fault (List Selection × List Char) := do
  let rest ← if keyword.isPrefixOf text then skipHeader (text.drop keyword.length) else .ok text
  match ignored rest with
  | '{' :: inside =>
    let (found, rest) ← selections (inside.length + 1) inside
    return (found, ignored rest)
  | other => fault .expectedBrace other

inductive QueryError where
  | empty
  | malformed (offset : Nat) (reason : Reason) (atEnd : Bool)
  | unsupportedFragment (offset : Nat)
  | unsupportedOperation (keyword : String)
  deriving DecidableEq, Repr

def Reason.message (atEnd : Bool) : Reason → String
  | unclosedGroup => "unbalanced parentheses"
  | trailing => "unexpected trailing input (only one operation is supported)"
  | expectedBrace => if atEnd then "unexpected end of query" else "unexpected input (Char)"
  | expectedName => if atEnd then "unexpected end of query" else "unexpected input (TakeWhile1)"
  | spread => if atEnd then "unexpected end of query" else "unexpected input (Verify)"

def QueryError.message : QueryError → String
  | empty => "Query is empty"
  | malformed offset reason atEnd => s!"Syntax error at offset {offset}: " ++ reason.message atEnd
  | unsupportedFragment offset => s!"Fragments are not supported (offset {offset})"
  | unsupportedOperation keyword => "Unsupported operation type: " ++ keyword

def byteLength : List Char → Nat
  | [] => 0
  | c :: rest => c.utf8Size + byteLength rest

def offset (text rest : List Char) : Nat := byteLength text - byteLength rest

def Fault.error (text : List Char) (fault : Fault) : QueryError :=
  match fault.reason with
  | .spread => .unsupportedFragment (offset text fault.rest)
  | reason => .malformed (offset text fault.rest) reason fault.rest.isEmpty

def refusedKeywords : List String := ["mutation", "subscription"]

def parseChars (text : List Char) : Except QueryError (List Selection) :=
  let start := ignored text
  if start.isEmpty then .error .empty
  else match refusedKeywords.find? fun keyword => keyword.toList.isPrefixOf start with
    | some keyword => .error (.unsupportedOperation keyword)
    | none =>
      match operation start with
      | .error fault => .error (fault.error text)
      | .ok (found, rest) =>
        if rest.isEmpty then .ok found
        else if "fragment".toList.isPrefixOf rest then
          .error (.unsupportedFragment (offset text rest))
        else .error (Fault.error text ⟨.trailing, rest⟩)

def parse (text : String) : Except QueryError (List Selection) := parseChars text.toList

end SchemaSampler.Query
