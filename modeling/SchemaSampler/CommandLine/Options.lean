import SchemaSampler.Keyed
import SchemaSampler.Word

-- An option stands at most once; its value is the next word, or follows an equals sign.

namespace SchemaSampler.CommandLine

inductive Topic where
  | program
  | generate
  | query
  | types
  | help
  deriving DecidableEq, Repr

inductive Refusal where
  | usage
  | help (topic : Topic)
  deriving DecidableEq, Repr

structure LongOption where
  name : String
  about : String
  -- without it the option takes no value
  accepts : Option (String → Bool) := none
  valueName : String := ""
  required : Bool := false
  -- the variable of the environment that stands in for the option
  variableName : Option String := none
  fallback : Option String := none

namespace LongOption

def anyText : String → Bool := fun _ => true

def pathText : String → Bool := fun path => path ≠ ""

def count? (text : String) : Option UInt64 :=
  let digits := match text.toList with
    | '+' :: rest => rest
    | chars => chars
  if digits.isEmpty || !digits.all Char.isDigit then none
  else
    let number := digits.foldl (fun number c => 10 * number + (c.toNat - '0'.toNat)) 0
    Word.uint64? (Int.ofNat number)

def countText : String → Bool := fun text => (count? text).isSome

end LongOption

-- What a word is, where no value is waited for.
inductive Word where
  | stop
  | long (name : String) (value : Option String)
  | short (letters : List Char)
  | plain (text : String)

def Word.ofText (text : String) : Word :=
  match text.toList with
  | ['-', '-'] => .stop
  | '-' :: '-' :: rest =>
    let name := String.ofList (rest.takeWhile (· ≠ '='))
    match rest.dropWhile (· ≠ '=') with
    | [] => .long name none
    | _ :: value => .long name (some (String.ofList value))
  | '-' :: first :: rest => .short (first :: rest)
  | _ => .plain text

def Word.isOption : Word → Bool
  | plain _ => false
  | _ => true

def Word.asksHelp : Word → Bool
  | long "help" none => true
  | short ('h' :: _) => true
  | _ => false

def readOptions (topic : Topic) (options : List LongOption) :
    List String → Keyed String → Except Refusal (Keyed String)
  | [], found => .ok found
  | first :: rest, found =>
    let word := Word.ofText first
    if word.asksHelp then .error (.help topic)
    else match word with
      | .stop => if rest.isEmpty then .ok found else .error .usage
      | .long name value =>
        match options.find? (·.name = name) with
        | none => .error .usage
        | some option =>
          if found.contains name then .error .usage
          else match option.accepts, value, rest with
            | none, none, rest => readOptions topic options rest (found.insert name "")
            | some accepts, some value, rest =>
              if accepts value then readOptions topic options rest (found.insert name value)
              else .error .usage
            | some accepts, none, value :: rest =>
              if !(Word.ofText value).isOption && accepts value then
                readOptions topic options rest (found.insert name value)
              else .error .usage
            | _, _, _ => .error .usage
      | _ => .error .usage

end SchemaSampler.CommandLine
