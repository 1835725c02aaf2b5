import SchemaSampler.Json.Printer

namespace SchemaSampler.Output

inductive Form where
  | lines
  | spread
  deriving DecidableEq, Repr

def line (value : Json) : String := value.text ++ "\n"

def write : Form → List Json → String
  | .lines, values => String.join (values.map line)
  | .spread, values => (Json.arr values).prettyText ++ "\n"

end SchemaSampler.Output
