import SchemaSampler.CommandLine.Options
import SchemaSampler.Output

namespace SchemaSampler.CommandLine

structure Generation where
  schema : String
  config : Option String
  seed : Option UInt64
  count : UInt64
  form : Output.Form

def Generation.paths (generation : Generation) : List String :=
  generation.schema :: generation.config.toList

inductive QuerySource where
  | text (query : String)
  | file (path : String)

inductive Command where
  | generate (type : String) (generation : Generation)
  | query (source : QuerySource) (generation : Generation)
  | types (schema : String)

abbrev Environment := String → Option String

def schemaVariable : String := "FIXTURE_GEN_SCHEMA"

def configVariable : String := "FIXTURE_GEN_CONFIG"

def schemaOption : LongOption where
  name := "schema"
  about := "Schema file (YAML or JSON)"
  accepts := some LongOption.pathText
  valueName := "SCHEMA"
  required := true
  variableName := some schemaVariable

def configOption : LongOption where
  name := "config"
  about := "Generation config file (depth, width, scalars, seed)"
  accepts := some LongOption.pathText
  valueName := "CONFIG"
  variableName := some configVariable

def seedOption : LongOption where
  name := "seed"
  about := "Random seed (overrides the config seed)"
  accepts := some LongOption.countText
  valueName := "SEED"

def countOption : LongOption where
  name := "count"
  about := "Number of values to generate"
  accepts := some LongOption.countText
  valueName := "COUNT"
  fallback := some "1"

def prettyOption : LongOption where
  name := "pretty"
  about := "Print one pretty JSON array instead of JSON lines"

def typeOption : LongOption where
  name := "type"
  about := "Type to generate (enum, object or scalar name)"
  accepts := some LongOption.anyText
  valueName := "NAME"
  required := true

def queryOption : LongOption where
  name := "query"
  about := "Query text"
  accepts := some LongOption.anyText
  valueName := "QUERY"

def queryFileOption : LongOption where
  name := "query-file"
  about := "File containing the query text"
  accepts := some LongOption.pathText
  valueName := "QUERY_FILE"

def generationOptions : List LongOption :=
  [schemaOption, configOption, seedOption, countOption, prettyOption]

def generateOptions : List LongOption := typeOption :: generationOptions

def queryOptions : List LongOption := queryOption :: queryFileOption :: generationOptions

def typesOptions : List LongOption := [schemaOption]

def path? (environment : Environment) (found : Keyed String) (name variableName : String) :
    Except Refusal (Option String) :=
  match found.get? name with
  | some path => .ok (some path)
  | none =>
    match environment variableName with
    | none => .ok none
    | some path => if LongOption.pathText path then .ok (some path) else .error .usage

def need (value : Option α) : Except Refusal α :=
  match value with
  | some value => .ok value
  | none => .error .usage

def schemaPath (environment : Environment) (found : Keyed String) : Except Refusal String := do
  need (← path? environment found "schema" schemaVariable)

def generation (environment : Environment) (found : Keyed String) :
    Except Refusal Generation := do
  let config ← path? environment found "config" configVariable
  return {
    schema := ← schemaPath environment found
    config
    seed := (found.get? "seed").bind LongOption.count?
    count := ((found.get? "count").bind LongOption.count?).getD 1
    form := if found.contains "pretty" then .spread else .lines }

def querySource (found : Keyed String) : Except Refusal QuerySource :=
  match found.get? "query", found.get? "query-file" with
  | some query, none => .ok (.text query)
  | none, some path => .ok (.file path)
  | _, _ => .error .usage

namespace Command

def topics : List (String × Topic × String) :=
  [("generate", .generate, "Generate values of one type"),
    ("query", .query, "Generate query-result envelopes shaped by a query"),
    ("types", .types, "List registered types and queries"),
    ("help", .help, "Print this message or the help of the given subcommand(s)")]

def ofWords (environment : Environment) : List String → Except Refusal Command
  | "generate" :: words => do
    let found ← readOptions .generate generateOptions words ∅
    let generation ← generation environment found
    return .generate (← need (found.get? "type")) generation
  | "query" :: words => do
    let found ← readOptions .query queryOptions words ∅
    let generation ← generation environment found
    return .query (← querySource found) generation
  | "types" :: words => do
    let found ← readOptions .types typesOptions words ∅
    return .types (← schemaPath environment found)
  | ["help"] => .error (.help .program)
  | ["help", name] =>
    match topics.lookup name with
    | some (topic, _) => .error (.help topic)
    | none => .error .usage
  | word :: _ => .error (if (Word.ofText word).asksHelp then .help .program else .usage)
  | [] => .error .usage

def paths : Command → List String
  | generate _ generation => generation.paths
  | query (.text _) generation => generation.paths
  | query (.file path) generation => path :: generation.paths
  | types schema => [schema]

end Command

end SchemaSampler.CommandLine
