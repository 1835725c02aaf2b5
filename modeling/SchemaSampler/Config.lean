import SchemaSampler.Policy.Reading
import SchemaSampler.ScalarRule.Reading
import SchemaSampler.Scalars

namespace SchemaSampler

open Document

structure Config where
  seed : Option UInt64 := none
  limits : Limits := {}
  scalars : Keyed ScalarRule := ∅

namespace Config

section

variable {σ : Type} [Scalar σ]

-- A misspelled field is a fault.
def record : Record σ Config Config where
  fields := "seed" :: Limits.fields ++ ["scalars"]
  strict := true
  step field node draft :=
    if field = "seed" then return { draft with seed := ← node.optional Node.uint64 }
    else if field = "scalars" then return { draft with scalars := ← node.keyed ScalarRule.read }
    else return { draft with limits := ← Limits.step field node draft.limits }
  start := {}
  finish := .ok

end

def ofYaml (text : String) : Read Config := (Yaml.document text).read record.read

def policy (config : Config) : Except GenerationError Policy := Policy.ofLimits config.limits

def scalarTable (config : Config) : Scalars := Scalars.ofRules config.scalars

-- A seed given outside the configuration goes first; without any it is zero.
def resolveSeed (config : Config) (explicit : Option UInt64) : UInt64 :=
  (explicit.or config.seed).getD 0

def sorted (entries : Keyed α) : List (String × α) :=
  entries.entries.mergeSort fun (first, _) (second, _) => !(second < first)

def limitJson (name : String) (limit : Option Int64) : List (String × Json) :=
  Json.optionalMember name (limit.map fun value => .ofInt value.toInt)

def limitsJson (name : String) (limits : Keyed Int64) : List (String × Json) :=
  if limits.isEmpty then []
  else [(name, .obj ((sorted limits).map fun (name, value) => (name, .ofInt value.toInt)))]

def rulesJson? : List (String × ScalarRule) → Option (List (String × Json))
  | [] => some []
  | (name, rule) :: rest =>
    match rule.toJson?, rulesJson? rest with
    | some json, some others => some ((name, json) :: others)
    | _, _ => none

def scalarsJson? (rules : Keyed ScalarRule) : Option (List (String × Json)) :=
  if rules.isEmpty then some []
  else (rulesJson? rules.entries).map fun members => [("scalars", .obj members)]

def toJson? (config : Config) : Option Json :=
  (scalarsJson? config.scalars).map fun scalars =>
    .obj (Json.optionalMember "seed" (config.seed.map fun seed => .ofInt seed.toNat) ++
      limitJson "default_depth" config.limits.defaultDepth ++
      limitJson "default_width" config.limits.defaultWidth ++
      limitsJson "depth" config.limits.depth ++ limitsJson "width" config.limits.width ++ scalars)

end Config

end SchemaSampler
