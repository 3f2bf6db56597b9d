import ModuleScaffold.Files.Disk

/-!
# Walking a directory

The files below a directory are visited in the order of their paths: the entries of a directory
come by name, and the files below a directory in the place of its name.
-/

namespace ModuleScaffold

namespace Entry

/-- Entries in the order of their names. -/
def byName (entries : List (String × Entry)) : List (String × Entry) :=
  entries.mergeSort fun a b => a.1 ≤ b.1

mutual

/-- An entry with the entries of every directory in the order of their names. -/
def sorted : Entry → Entry
  | file octets => file octets
  | directory entries => directory (byName (sortedAll entries))

/-- Entries that are sorted inside. -/
def sortedAll : List (String × Entry) → List (String × Entry)
  | [] => []
  | (name, entry) :: rest => (name, sorted entry) :: sortedAll rest

end

/-- A file with its path. -/
structure Found where
  /-- The path. -/
  path : Path
  /-- The octets of the file. -/
  octets : Octets
  deriving DecidableEq, Repr

mutual

/-- The files below an entry, in the order of the entries. -/
def filesBelow (path : Path) : Entry → List Found
  | file octets => [⟨path, octets⟩]
  | directory entries => filesAmong path entries

/-- The files below the entries of a directory, in their order. -/
def filesAmong (path : Path) : List (String × Entry) → List Found
  | [] => []
  | (name, entry) :: rest => filesBelow (path.join name) entry ++ filesAmong path rest

end

/-- The files below an entry in the order of their paths. -/
def walk (path : Path) (entry : Entry) : List Found :=
  (sorted entry).filesBelow path

end Entry

end ModuleScaffold
