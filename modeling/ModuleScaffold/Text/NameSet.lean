/-!
# Sets of names

A set of names is held as the ascending list of its members.
-/

namespace ModuleScaffold

namespace Text

/-- An ascending list of texts with one more member. -/
def insertName (name : String) : List String → List String
  | [] => [name]
  | n :: ns =>
    if name < n then name :: n :: ns
    else if name = n then n :: ns
    else n :: insertName name ns

/-- The ascending list of the members of a list. -/
def nameSet (names : List String) : List String :=
  names.foldl (fun set name => insertName name set) []

end Text

end ModuleScaffold
