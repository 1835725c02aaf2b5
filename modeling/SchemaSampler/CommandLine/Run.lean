import SchemaSampler.CommandLine.Help
import SchemaSampler.Generator
import SchemaSampler.Schema.Reading

namespace SchemaSampler.CommandLine

open SchemaSampler.Random

inductive CommandError where
  | schemaFile (path : String) (cause : SchemaError)
  | configFile (path : String) (cause : FileError)
  | config (path : String) (cause : Document.ReadError)
  | queryFile (path : String) (cause : FileError)
  | build (cause : BuildError)
  | type (name : String) (cause : GenerationError)
  | query (cause : GenerationError)
  | validation (cause : SchemaError)

namespace CommandError

def chain : CommandError → List String
  | schemaFile path cause => ("Failed to load schema: " ++ path) :: cause.chain
  | configFile path cause => ["Failed to read config file: " ++ path, cause.message]
  | config path cause => ["Failed to parse config file: " ++ path, cause.message]
  | queryFile path cause => ["Failed to read query file: " ++ path, cause.message]
  | build cause => cause.chain
  | type name cause => ("Cannot generate type '" ++ name ++ "'") :: cause.chain
  | query cause => "Failed to build query result generator" :: cause.chain
  | validation cause => "Schema validation failed" :: cause.chain

def report (error : CommandError) : String :=
  "Error: " ++ String.intercalate ": " error.chain ++ "\n"

end CommandError

structure Outcome where
  exit : UInt8
  output : String := ""
  errors : String := ""

def Outcome.refused (environment : Environment) : Refusal → Outcome
  | .usage => { exit := 2, errors := Help.usageLine ["<COMMAND>"] }
  | .help topic => { exit := 0, output := Help.text environment topic }

def Outcome.failed (error : CommandError) : Outcome := { exit := 1, errors := error.report }

def loadSchema (files : Files) (path : String) : Except CommandError Schema :=
  (Schema.ofFile files path).mapError (.schemaFile path)

def loadConfig (files : Files) (path : Option String) : Except CommandError Config :=
  match path with
  | none => .ok {}
  | some path => do
    let text ← (files path).mapError (.configFile path)
    (Config.ofYaml text).mapError (.config path)

namespace Generation

def generator (files : Files) (generation : Generation) :
    Except CommandError (Generator ChaCha) := do
  let schema ← loadSchema files generation.schema
  let config ← loadConfig files generation.config
  (Generator.build schema config generation.seed).mapError .build

end Generation

def haltedExit : UInt8 := 101

-- Lines are written as their values are drawn.
def written (form : Output.Form) (values : List Json) : Option Halt → Outcome
  | none => { exit := 0, output := Output.write form values }
  | some _ =>
    { exit := haltedExit
      output := match form with
        | .lines => Output.write form values
        | .spread => "" }

def typeList (schema : Schema) : String :=
  String.join ([TypeKind.enum, .object, .scalar, .query].map fun kind =>
    kind.name ++ ":\n" ++ String.join ((schema.names kind).map fun name => "  " ++ name ++ "\n"))

namespace Command

def outcome (files : Files) : Command → Except CommandError Outcome
  | generate type generation => do
    let generator ← generation.generator files
    let pending ← (generator.values type generation.count.toNat).mapError (.type type)
    let (values, halted, _) := pending.take generator generation.count.toNat
    return written generation.form values halted
  | query source generation => do
    let text ← match source with
      | .text text => pure text
      | .file path => (files path).mapError (.queryFile path)
    let generator ← generation.generator files
    let (values, halted, _) ←
      (generator.queryResults text [] generation.count.toNat).mapError .query
    -- results are written when all of them are drawn
    return if halted.isSome then { exit := haltedExit } else written generation.form values none
  | types path => do
    let schema ← loadSchema files path
    schema.validate.mapError .validation
    return { exit := 0, output := typeList schema }

end Command

def run (environment : Environment) (files : Files) (words : List String) : Outcome :=
  match Command.ofWords environment words with
  | .error refusal => .refused environment refusal
  | .ok command =>
    match command.outcome files with
    | .error error => .failed error
    | .ok outcome => outcome

end SchemaSampler.CommandLine
