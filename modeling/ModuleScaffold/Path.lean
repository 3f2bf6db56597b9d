import ModuleScaffold.Text.Blank

/-!
# Paths

A path is a text whose pieces between slashes name directories and a file. The text is kept as it
was put together; what it denotes is the list of its *components*. Empty pieces denote nothing, a
slash at the start denotes the root, and a single point denotes the current directory at the
start and nothing elsewhere.

Paths are compared by components. `importPath` writes the way from a directory to a file, as the
specifier of an import.
-/

namespace ModuleScaffold

/-- A path, as the text it was put together to. -/
structure Path where
  /-- The text of the path. -/
  text : String
  deriving DecidableEq, Repr

namespace Path

/-- One step of a path. -/
inductive Component
  /-- The root directory. -/
  | root
  /-- The current directory, at the start of a path. -/
  | current
  /-- The directory above. -/
  | up
  /-- A named file or directory. -/
  | name (text : String)
  deriving DecidableEq, Repr

/-- The place of a component in the order of components. -/
def Component.rank : Component → Nat
  | root => 0
  | current => 1
  | up => 2
  | name _ => 3

/-- The text of a component. -/
def Component.text : Component → String
  | root => "/"
  | current => "."
  | up => ".."
  | name s => s

/-- The order of components: by kind, and names by their text. -/
def Component.before (a b : Component) : Bool :=
  match a, b with
  | name s, name t => s < t
  | a, b => a.rank < b.rank

/-- The pieces between slashes. -/
def pieces (path : Path) : List (List Char) :=
  Text.fields (· == '/') path.text.toList

/-- What a piece denotes that does not stand at the start. -/
def innerComponent (piece : List Char) : Option Component :=
  if piece = [] || piece = ['.'] then none
  else if piece = ['.', '.'] then some .up
  else some (.name (String.ofList piece))

/-- Whether the path starts at the root. -/
def isAbsolute (path : Path) : Bool :=
  path.text.toList.head? == some '/'

/-- What the piece at the start of a path denotes. -/
def firstComponent (path : Path) (piece : List Char) : Option Component :=
  if path.isAbsolute then some .root
  else if piece = ['.'] then some .current
  else innerComponent piece

/-- The components of a path. -/
def components (path : Path) : List Component :=
  match path.pieces with
  | [] => []
  | first :: rest => (path.firstComponent first).toList ++ rest.filterMap innerComponent

/-- Whether two paths denote the same. -/
def same (a b : Path) : Bool :=
  a.components == b.components

/-- Lexicographic order of component lists. -/
def componentsBefore : List Component → List Component → Bool
  | _, [] => false
  | [], _ :: _ => true
  | a :: as, b :: bs => a.before b || (a == b && componentsBefore as bs)

/-- The order of paths, by components. -/
def before (a b : Path) : Bool :=
  componentsBefore a.components b.components

/-! ### Putting together and taking apart -/

/-- A path followed by another one; an absolute path replaces what stands before it. -/
def join (base : Path) (tail : String) : Path :=
  if tail.toList.head? = some '/' then ⟨tail⟩
  else if base.text.isEmpty || base.text.toList.getLast? = some '/' then ⟨base.text ++ tail⟩
  else ⟨base.text ++ "/" ++ tail⟩

/-- A piece that denotes nothing away from the start. -/
def isEmptyPiece (piece : List Char) : Bool :=
  piece == [] || piece == ['.']

/-- Pieces with slashes between them. -/
def ofPieces (pieces : List (List Char)) : Path :=
  ⟨String.ofList (Text.joinWith ['/'] pieces)⟩

/-- The path of the directory that holds what the path denotes. -/
def parent (path : Path) : Option Path :=
  match path.pieces with
  | [] => none
  | first :: rest =>
    match Text.dropEndWhile isEmptyPiece rest with
    | [] => if first = [] then none else some ⟨""⟩
    | inner =>
      match Text.dropEndWhile isEmptyPiece inner.dropLast with
      | [] => if path.isAbsolute then some ⟨"/"⟩ else some (ofPieces [first])
      | above => some (ofPieces (first :: above))

/-- The name of the file that the path denotes. -/
def fileName? (path : Path) : Option String :=
  match path.components.getLast? with
  | some (.name s) => some s
  | _ => none

/-- The part of a file name behind its last point, if something stands before that point. -/
def extension? (fileName : String) : Option String :=
  let pieces := Text.fields (· == '.') fileName.toList
  match pieces.getLast?, pieces.dropLast with
  | some ext, before =>
    if before.isEmpty || before == [[]] || fileName = ".." then none else some (String.ofList ext)
  | none, _ => none

/-! ### The way from one place to another -/

/-- The steps from the directory `origin` to `target`, after the steps `out`. A common start is
skipped; what remains of `origin` is left by going up. There is no way out of a directory
that is only known as the one above. -/
def stepsFrom (out : List Component) : List Component → List Component → Option (List Component)
  | target, [] => some (out ++ target)
  | [], _ :: origin => stepsFrom (out ++ [.up]) [] origin
  | x :: target, y :: origin =>
    if out.isEmpty && x == y then stepsFrom out target origin
    else if y = .current then stepsFrom (out ++ [x]) target origin
    else if y = .up then none
    else some (out ++ .up :: (origin.map fun _ => .up) ++ x :: target)

/-- The steps from a directory to a target, if there is a way. -/
def steps (origin target : Path) : Option (List Component) :=
  if origin.isAbsolute == target.isAbsolute then stepsFrom [] target.components origin.components
  else if target.isAbsolute then some target.components
  else none

/-- A step as it is written in an import specifier. -/
def stepText : Component → Option (List Char)
  | .up => some ['.', '.']
  | .name s => some s.toList
  | _ => none

/-- The import specifier that leads from a directory to a target. -/
def importPath (origin target : Path) : String :=
  let steps := (origin.steps target).getD target.components
  let joined := Text.joinWith ['/'] (steps.filterMap stepText)
  String.ofList (if ['.', '.'].isPrefixOf joined then joined else '.' :: '/' :: joined)

end Path

end ModuleScaffold
