namespace SchemaSampler

inductive FileError where
  | notFound
  | notADirectory
  | isADirectory
  | nameTooLong
  | notPermitted
  | zeroCharacter
  | notText
  | refused (words : String)
  deriving DecidableEq, Repr

def FileError.message : FileError → String
  | notFound => "No such file or directory (os error 2)"
  | notADirectory => "Not a directory (os error 20)"
  | isADirectory => "Is a directory (os error 21)"
  | nameTooLong => "File name too long (os error 36)"
  | notPermitted => "Permission denied (os error 13)"
  | zeroCharacter => "file name contained an unexpected NUL byte"
  | notText => "stream did not contain valid UTF-8"
  | refused words => words

abbrev Files := String → Except FileError String

namespace Path

-- The last part of a path; a trailing slash does not count.
def fileName? (path : String) : Option (List Char) :=
  let parts := (path.splitOn "/").filter fun part => part ≠ "" ∧ part ≠ "."
  match parts.getLast? with
  | some ".." => none
  | some name => some name.toList
  | none => none

def extension? (path : String) : Option String := do
  let name := (← fileName? path).reverse
  let tail := name.takeWhile (· ≠ '.')
  let stem := (name.dropWhile (· ≠ '.')).tail
  if stem.isEmpty then none else some (String.ofList tail.reverse)

end Path

end SchemaSampler
