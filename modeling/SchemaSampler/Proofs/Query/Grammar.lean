import SchemaSampler.Query.Parse

-- The grammar of query text. Every part relates the text where it starts to the text
-- that is left after it. Parts that may be absent leave the text as it is.

namespace SchemaSampler.Query

-- Where a comment may end: at the end of the text, before LF, or before CR and LF.
inductive LineEnd : List Char → Prop where
  | text : LineEnd []
  | feed : LineEnd ('\n' :: rest)
  | carriage : LineEnd ('\r' :: '\n' :: rest)

-- Any run of blanks, line ends, commas and comments, not only the longest one.
inductive Ignorable : List Char → List Char → Prop where
  | none : Ignorable text text
  | separator (separates : c ∈ [' ', '\t', '\r', '\n', ',']) (more : Ignorable text rest) :
      Ignorable (c :: text) rest
  | comment (inLine : ∀ c ∈ body, c ≠ '\r' ∧ c ≠ '\n') (ends : LineEnd text)
      (more : Ignorable text rest) : Ignorable ('#' :: (body ++ text)) rest

inductive NameAt : List Char → List Char → List Char → Prop where
  | run (letter : isLetter first = true) (others : ∀ c ∈ more, isNameChar c = true)
      (longest : ∀ c ∈ rest.head?, isNameChar c = false) :
      NameAt (first :: (more ++ rest)) (first :: more) rest

inductive OptionalNameAt : List Char → List Char → Prop where
  | absent : OptionalNameAt text text
  | present (skipped : Ignorable text start) (name : NameAt start found rest) :
      OptionalNameAt text rest

inductive ArgumentsAt : List Char → List Char → Prop where
  | absent : ArgumentsAt text text
  | present (skipped : Ignorable text start) (delimited : group start = .closed inside rest) :
      ArgumentsAt text rest

inductive DirectivesAt : List Char → List Char → Prop where
  | none : DirectivesAt text text
  | more (skipped : Ignorable text ('@' :: start)) (name : NameAt start found after)
      (arguments : ArgumentsAt after next) (others : DirectivesAt next rest) :
      DirectivesAt text rest

inductive SecondNameAt : List Char → Option (List Char) → List Char → Prop where
  | absent : SecondNameAt text none text
  | present (skipped : Ignorable text (':' :: colon)) (between : Ignorable colon start)
      (name : NameAt start found rest) : SecondNameAt text (some found) rest

inductive HeadAt : List Char → List Char → Option (List Char) → List Char → Prop where
  | head (name : NameAt text first afterName) (second : SecondNameAt afterName other afterSecond)
      (arguments : ArgumentsAt afterSecond afterArguments)
      (directives : DirectivesAt afterArguments rest) : HeadAt text first other rest

-- Of two names the first is the output name.
def selectionOf (first : List Char) (second : Option (List Char))
    (nested : Option (List Selection)) : Selection :=
  match second with
  | none => ⟨String.ofList first, none, nested⟩
  | some second => ⟨String.ofList second, some (String.ofList first), nested⟩

mutual

inductive SelectionAt : List Char → Selection → List Char → Prop where
  | leaf (head : HeadAt text first second rest) :
      SelectionAt text (selectionOf first second none) rest
  | nested (head : HeadAt text first second after) (skipped : Ignorable after start)
      (set : SetAt start trees rest) : SelectionAt text (selectionOf first second (some trees)) rest

inductive SetAt : List Char → List Selection → List Char → Prop where
  | braces (members : SelectionsAt inside found after) (skipped : Ignorable after ('}' :: rest)) :
      SetAt ('{' :: inside) found rest

inductive SelectionsAt : List Char → List Selection → List Char → Prop where
  | none : SelectionsAt text [] text
  | more (skipped : Ignorable text start) (one : SelectionAt start first after)
      (later : SelectionsAt after others rest) : SelectionsAt text (first :: others) rest

end

inductive HeaderAt : List Char → List Char → Prop where
  | absent : HeaderAt text text
  | present (name : OptionalNameAt text afterName) (arguments : ArgumentsAt afterName afterArguments)
      (directives : DirectivesAt afterArguments rest) : HeaderAt ("query".toList ++ text) rest

inductive Document : List Char → List Selection → Prop where
  | operation (before : Ignorable text start) (header : HeaderAt start afterHeader)
      (between : Ignorable afterHeader body) (set : SetAt body found rest)
      (after : Ignorable rest []) : Document text found

end SchemaSampler.Query
