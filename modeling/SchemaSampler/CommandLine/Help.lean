import SchemaSampler.CommandLine.Command

namespace SchemaSampler.CommandLine

def programName : String := "fixture-gen"

def programAbout : String := "A tool for generating random test fixtures from type schemas"

def pageWidth : Nat := 100

namespace Help

-- `line` is the line under construction.
def fold (width : Nat) (line : String) : List String → List String
  | [] => [line]
  | word :: rest =>
    if width < line.length + 1 + word.length then line :: fold width word rest
    else fold width (line ++ " " ++ word) rest

def lines (width : Nat) (text : String) : List String :=
  match text.splitOn " " with
  | [] => []
  | first :: rest => fold width first rest

def pad (width : Nat) (text : String) : String :=
  text ++ String.ofList (List.replicate (width - text.length) ' ')

def table (indent : String) (rows : List (String × String)) : String :=
  let longest := rows.foldl (fun longest (left, _) => max longest left.length) 0
  let start := indent.length + longest + 2
  String.join (rows.map fun (left, right) =>
    indent ++ pad longest left ++ "  " ++
      String.intercalate ("\n" ++ pad start "") (lines (pageWidth - start) right) ++ "\n")

def optionName (option : LongOption) : String :=
  "--" ++ option.name ++ if option.accepts.isSome then " <" ++ option.valueName ++ ">" else ""

def optionAbout (environment : Environment) (option : LongOption) : String :=
  option.about ++
    (match option.variableName with
      | some name => " [env: " ++ name ++ "=" ++ (environment name).getD "" ++ "]"
      | none => "") ++
    match option.fallback with
    | some value => " [default: " ++ value ++ "]"
    | none => ""

def helpRow : String × String := ("-h, --help", "Print help")

def optionTable (environment : Environment) (options : List LongOption) : String :=
  let rows := options.map fun option =>
    ("    " ++ optionName option, optionAbout environment option)
  "\nOptions:\n" ++ table "  " (rows ++ [helpRow])

def usageLine (words : List String) : String :=
  "Usage: " ++ String.intercalate " " (programName :: words) ++ "\n"

def commandUsage (name : String) (options : List LongOption) : String :=
  let optional := if options.any (!·.required) then ["[OPTIONS]"] else []
  usageLine (name :: optional ++ (options.filter (·.required)).map optionName)

def about (topic : Topic) : String :=
  ((Command.topics.find? (·.2.1 = topic)).map (·.2.2)).getD programAbout

def command (environment : Environment) (topic : Topic) (name : String)
    (options : List LongOption) : String :=
  about topic ++ "\n\n" ++ commandUsage name options ++ optionTable environment options

def text (environment : Environment) : Topic → String
  | .program =>
    about .program ++ "\n\n" ++ usageLine ["<COMMAND>"] ++
      "\nCommands:\n" ++ table "  " (Command.topics.map fun (name, _, about) => (name, about)) ++
      optionTable environment []
  | .generate => command environment .generate "generate" generateOptions
  | .query => command environment .query "query" queryOptions
  | .types => command environment .types "types" typesOptions
  | .help =>
    about .help ++ "\n\n" ++ usageLine ["help", "[COMMAND]..."] ++
      "\nArguments:\n" ++ table "  " [("[COMMAND]...", "Print help for the subcommand(s)")]

end Help

end SchemaSampler.CommandLine
