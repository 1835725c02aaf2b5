import SchemaSampler.Policy
import SchemaSampler.Yaml.Reader

namespace SchemaSampler.Limits

open Document

variable {σ : Type} [Scalar σ]

def fields : List String := ["default_depth", "default_width", "depth", "width"]

def step (field : String) (node : Node σ) (draft : Limits) : Reading Limits := do
  if field = "default_depth" then return { draft with defaultDepth := ← node.optional Node.int64 }
  else if field = "default_width" then
    return { draft with defaultWidth := ← node.optional Node.int64 }
  else if field = "depth" then return { draft with depth := ← node.keyed Node.int64 }
  else return { draft with width := ← node.keyed Node.int64 }

def record : Record σ Limits Limits where
  fields := fields
  strict := true
  step := step
  start := {}
  finish := .ok

def ofYaml (text : String) : Read Limits := (Yaml.document text).read record.read

end SchemaSampler.Limits
