import ModuleScaffold.Text.NameSet
import ModuleScaffold.Value.Layout

/-!
# Imports

What is imported from one source: a set of specifiers, each written as in an import statement
(`a`, `b as c`, `type T`, `default as X`, `* as ns`). Sets are held as ascending lists.

`Import.render` writes the statements; an import of a whole module under a name gets a statement
of its own.
-/

namespace ModuleScaffold

/-- The imports from one source. -/
structure Import where
  /-- Where the names come from. -/
  source : String
  /-- The specifiers, ascending. -/
  names : List String
  deriving DecidableEq, Repr

namespace Import

/-! ### Bindings -/

/-- The text behind the last occurrence of `mark`. -/
def behindLast (mark : List Char) : List Char → Option (List Char)
  | [] => none
  | c :: cs =>
    match behindLast mark cs with
    | some rest => some rest
    | none => if mark.isPrefixOf (c :: cs) then some ((c :: cs).drop mark.length) else none

/-- The mark of a specifier that imports a type. -/
def typeMark : List Char := "type ".toList

/-- The mark between a name and the name it is bound to. -/
def asMark : List Char := " as ".toList

/-- The name that a specifier binds. -/
def binding (specifier : String) : String :=
  let cs := specifier.toList
  let cs := if typeMark.isPrefixOf cs then cs.drop typeMark.length else cs
  Text.trim (String.ofList ((behindLast asMark cs).getD cs))

/-- The names bound by the imports from one source. -/
def bindings (decl : Import) : List String :=
  decl.names.map binding

/-! ### Order -/

/-- Sources whose modules come first, the names of packages and of families of packages. -/
def frameworkPackages : List String := ["zod", "awilix", "express"]

/-- The starts of the names of framework packages. -/
def frameworkScopes : List String := ["@medusajs/", "@mikro-orm/"]

/-- Whether a source belongs to the framework. -/
def isFramework (source : String) : Bool :=
  frameworkScopes.any (fun scope => scope.toList.isPrefixOf source.toList)
    || frameworkPackages.any fun package =>
      source == package || (package.toList ++ ['/']).isPrefixOf source.toList

/-- Imports in the order in which they are written: those from the framework first. -/
def sort (imports : List Import) : List Import :=
  imports.filter (isFramework ·.source) ++ imports.filter (! isFramework ·.source)

/-! ### Writing -/

/-- Whether a specifier binds a whole module. -/
def isNamespace (specifier : String) : Bool :=
  "* as ".toList.isPrefixOf specifier.toList

/-- The statement that imports a whole module under a name. -/
def renderNamespace (source : List Char) (specifier : String) : List Char :=
  "import ".toList ++ specifier.toList ++ " from ".toList ++ source ++ [';']

/-- The statement that imports names, on one line if it fits. -/
def renderNamed (source : List Char) (names : List String) : List Char :=
  let flat := "import \x7b ".toList ++ Value.commaSeparated (names.map String.toList)
    ++ " \x7d from ".toList ++ source ++ [';']
  if Text.width flat ≤ Value.lineWidth then flat
  else "import \x7b\n".toList
    ++ (names.flatMap fun name => ' ' :: ' ' :: (name.toList ++ [',', '\n']))
    ++ "\x7d from ".toList ++ source ++ [';']

/-- The statements for one source. -/
def render (decl : Import) : List (List Char) :=
  let source := Text.quoteChars decl.source.toList
  if decl.names.isEmpty then ["import ".toList ++ source ++ [';']]
  else
    let named := decl.names.filter (! isNamespace ·)
    (decl.names.filter isNamespace).map (renderNamespace source)
      ++ if named.isEmpty then [] else [renderNamed source named]

end Import

end ModuleScaffold
