namespace SchemaSampler

-- Sorted by name, every count positive.
abbrev DepthState := List (String × Nat)

namespace DepthState

def enter (name : String) : DepthState → DepthState
  | [] => [(name, 1)]
  | (other, count) :: rest =>
    if name = other then (other, count + 1) :: rest
    else if name < other then (name, 1) :: (other, count) :: rest
    else (other, count) :: enter name rest

def ofPath (path : List String) : DepthState := path.foldl (fun state name => enter name state) []

end DepthState

end SchemaSampler
