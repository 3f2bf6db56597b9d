import ModuleScaffold.Failure

/-!
# Files

What is asked of a file system: the text of a file, if the file is there, and that a file hold a
text. Files are named by paths.

`Files.memory` holds the files themselves, and `Files.dryRun` remembers what would be written to
another file system, so that what is read later is what a real run would have left.
-/

namespace ModuleScaffold

/-- A file system whose actions are those of `m`. -/
structure Files (m : Type → Type) where
  /-- The text of a file, if there is one. -/
  read : Path → Run m (Option String)
  /-- Makes a file hold a text. -/
  write : Path → String → Run m Unit

/-- A file with its text. -/
structure TextFile where
  /-- The path. -/
  path : Path
  /-- The text. -/
  text : String
  deriving DecidableEq, Repr

/-! ### Files in memory -/

/-- Files in memory, ascending by their paths. -/
structure Memory where
  /-- The files. -/
  files : List TextFile := []
  deriving DecidableEq, Repr

namespace Memory

/-- The text of the file that a path denotes. -/
def get? (memory : Memory) (path : Path) : Option String :=
  (memory.files.find? (·.path.same path)).map (·.text)

/-- Files with a text put at a path. A file that is there keeps the path under which it was put
there first. -/
def putIn (path : Path) (text : String) : List TextFile → List TextFile
  | [] => [⟨path, text⟩]
  | f :: fs =>
    if path.before f.path then ⟨path, text⟩ :: f :: fs
    else if f.path.same path then ⟨f.path, text⟩ :: fs
    else f :: putIn path text fs

/-- Files in memory with a text put at a path. -/
def put (memory : Memory) (path : Path) (text : String) : Memory :=
  ⟨putIn path text memory.files⟩

end Memory

/-- The file system in memory. -/
def Files.memory : Files (StateM Memory) where
  read path := do return (← get).get? path
  write path text := modify (·.put path text)

/-! ### Dry runs -/

/-- What a dry run would have written, the last first. -/
structure Pending where
  /-- The files. -/
  writes : List TextFile := []
  deriving DecidableEq, Repr

namespace Pending

/-- The text that would have been written last to a path. -/
def get? (pending : Pending) (path : Path) : Option String :=
  (pending.writes.find? (·.path.same path)).map (·.text)

/-- The writes with one more. -/
def put (pending : Pending) (path : Path) (text : String) : Pending :=
  ⟨⟨path, text⟩ :: pending.writes⟩

/-- The writes in the order in which they would have happened. -/
def inOrder (pending : Pending) : List TextFile :=
  pending.writes.reverse

end Pending

/-- The file system of a dry run over another one, which is only read. -/
def Files.dryRun {m : Type → Type} [Monad m] (base : Files m) : Files (StateT Pending m) where
  read path := do
    match (← get).get? path with
    | some text => return some text
    | none => .mk (StateT.lift (base.read path).run)
  write path text := modify (·.put path text)

end ModuleScaffold
