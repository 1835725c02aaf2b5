import SchemaSampler.CommandLine.Run

namespace SchemaSampler.CommandLine

-- Some of the system's calls give the number of a fault negated.
def faultNumber (code : UInt32) : Nat := if code < 0x80000000 then code.toNat else (0 - code).toNat

def fault? (number : Nat) : Option FileError :=
  [(2, FileError.notFound), (13, .notPermitted), (20, .notADirectory), (21, .isADirectory),
    (36, .nameTooLong)].lookup number

def faultOfCode (code : UInt32) (words : String) : FileError :=
  (fault? (faultNumber code)).getD (.refused words)

def readFile (path : String) : IO (Except FileError String) := do
  if path.contains '\x00' then return .error .zeroCharacter
  try
    let bytes ← IO.FS.readBinFile path
    return match String.fromUTF8? bytes with
      | some text => .ok text
      | none => .error .notText
  catch
    | .noFileOrDirectory .. => return .error .notFound
    | .inappropriateType _ code words => return .error (faultOfCode code words)
    | .invalidArgument _ code words => return .error (faultOfCode code words)
    | .permissionDenied _ code words => return .error (faultOfCode code words)
    | error => return .error (.refused (toString error))

def readFiles (paths : List String) : IO Files := do
  let read ← paths.mapM fun path => return (path, ← readFile path)
  return fun path => (read.lookup path).getD (.error .notFound)

def readEnvironment (names : List String) : IO Environment := do
  let read ← names.mapM fun name => return (name, ← IO.getEnv name)
  return fun name => (read.lookup name).join

end SchemaSampler.CommandLine

open SchemaSampler.CommandLine in
def main (words : List String) : IO UInt32 := do
  let environment ← readEnvironment [schemaVariable, configVariable]
  let paths := match Command.ofWords environment words with
    | .ok command => command.paths
    | .error _ => []
  let outcome := run environment (← readFiles paths) words
  IO.print outcome.output
  IO.eprint outcome.errors
  return outcome.exit.toUInt32
