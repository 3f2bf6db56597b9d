import ModuleScaffold.Route
import ModuleScaffold.Store.Import

/-!
# The declarations of a middleware file

What a middleware file declares: its imports, its schema constants, its routes, the statements
that are kept as they are written, and the further settings of the registration. Imports are held
in ascending order of their sources, routes in the order of their keys; the other lists keep the
order in which their members came.

Every change is by key: names are added to the import of their source, and a constant, a route or
a setting replaces the one with the same key. `Store.merge` applies all declarations of one store
on top of another.
-/

namespace ModuleScaffold

/-- A schema constant. -/
structure Definition where
  /-- The name of the constant. -/
  name : String
  /-- The text of its initializer. -/
  expression : String
  /-- Whether it is exported. -/
  exported : Bool
  deriving DecidableEq, Repr

/-- A further setting of the registration. -/
structure Setting where
  /-- The key. -/
  key : String
  /-- The text of the value. -/
  value : String
  deriving DecidableEq, Repr

/-- The declarations of a middleware file. -/
structure Store where
  /-- The imports, by source. -/
  imports : List Import := []
  /-- The schema constants. -/
  definitions : List Definition := []
  /-- The routes, by key. -/
  routes : List Route := []
  /-- The statements that are kept as they are written. -/
  statements : List String := []
  /-- The further settings of the registration. -/
  settings : List Setting := []
  deriving Repr

namespace Store

/-- The store without declarations. -/
def empty : Store := {}

/-- Whether nothing is declared. -/
def isEmpty (store : Store) : Bool :=
  store.imports.isEmpty && store.definitions.isEmpty && store.routes.isEmpty
    && store.statements.isEmpty && store.settings.isEmpty

/-! ### Looking up -/

/-- The imports from a source. -/
def import? (store : Store) (source : String) : Option Import :=
  store.imports.find? (·.source == source)

/-- The constant of the given name. -/
def definition? (store : Store) (name : String) : Option Definition :=
  store.definitions.find? (·.name == name)

/-- The route of the given key. -/
def route? (store : Store) (method : Method) (matcher : String) : Option Route :=
  store.routes.find? fun r => r.method == method && r.matcher == matcher

/-- Whether an import or a constant binds the name. -/
def isBound (store : Store) (name : String) : Bool :=
  store.definitions.any (·.name == name)
    || store.imports.any fun decl => decl.bindings.contains name

/-! ### Imports -/

/-- Changes the import of a source in an ascending list of imports; a source that is not there
yet starts without names. -/
def updateImport (source : String) (change : List String → List String) :
    List Import → List Import
  | [] => [⟨source, change []⟩]
  | i :: is =>
    if source < i.source then ⟨source, change []⟩ :: i :: is
    else if source = i.source then ⟨i.source, change i.names⟩ :: is
    else i :: updateImport source change is

/-- A set of specifiers with one more, its blanks made single spaces; an empty one is left out. -/
def withSpecifier (names : List String) (specifier : String) : List String :=
  let name := Text.collapse specifier
  if name.isEmpty then names else Text.insertName name names

/-- The store with names added to the import of a source. Without names, the source is imported
for its effects. -/
def addImports (store : Store) (source : String) (names : List String) : Store :=
  { store with imports := updateImport source (names.foldl withSpecifier) store.imports }

/-- The store with one name added to the import of a source. -/
def addImport (store : Store) (source name : String) : Store :=
  store.addImports source [name]

/-! ### Constants, routes, statements, settings -/

/-- A list in which an item takes the place of the first one that it replaces, or the end. -/
def upsert {α : Type} (replaces : α → Bool) (item : α) : List α → List α
  | [] => [item]
  | x :: xs => if replaces x then item :: xs else x :: upsert replaces item xs

/-- The store with a schema constant that has been checked. -/
def insertDefinition (store : Store) (definition : Definition) : Store :=
  { store with
    definitions := upsert (·.name == definition.name) definition store.definitions }

/-- A list of routes, ascending by key, in which a route takes its place. -/
def insertRoute (route : Route) : List Route → List Route
  | [] => [route]
  | r :: rs =>
    if route.keyBefore r then route :: r :: rs
    else if route.sameKey r then route :: rs
    else r :: insertRoute route rs

/-- The store with a route, or the reason why the route cannot be written. -/
def addRoute (store : Store) (route : Route) : Except Value.Problem Store :=
  match route.problem? with
  | some p => .error p
  | none => .ok { store with routes := insertRoute route store.routes }

/-- The store with a statement, if it is not there yet. -/
def addStatement (store : Store) (statement : String) : Store :=
  let statement := Text.trim statement
  if statement.isEmpty || store.statements.contains statement then store
  else { store with statements := store.statements ++ [statement] }

/-- The store with a further setting. -/
def addSetting (store : Store) (key value : String) : Store :=
  let setting : Setting := ⟨key, Text.trim value⟩
  { store with settings := upsert (·.key == key) setting store.settings }

/-! ### Merging -/

/-- The store with the declarations of another one on top. -/
def merge (store other : Store) : Except Value.Problem Store := do
  let store := other.imports.foldl (fun s i => s.addImports i.source i.names) store
  let store := other.definitions.foldl insertDefinition store
  let store ← other.routes.foldlM addRoute store
  let store := other.statements.foldl addStatement store
  return other.settings.foldl (fun s c => s.addSetting c.key c.value) store

/-! ### Equality -/

/-- Equality of lists of routes. -/
def sameRoutes : List Route → List Route → Bool
  | [], [] => true
  | a :: as, b :: bs => a.same b && sameRoutes as bs
  | _, _ => false

/-- Whether two stores declare the same, whatever the order of the constants. -/
def same (a b : Store) : Bool :=
  a.imports == b.imports && sameRoutes a.routes b.routes && a.statements == b.statements
    && a.settings == b.settings && a.definitions.length == b.definitions.length
    && a.definitions.all b.definitions.contains

/-! ### References -/

/-- The ending of the names of schemas. -/
def schemaSuffix : String := "Schema"

/-- Whether a name is that of a schema. -/
def isSchemaName (name : String) : Bool :=
  schemaSuffix.toList.isSuffixOf name.toList

/-- A schema that a route refers to. -/
structure Reference where
  /-- The name of the schema. -/
  schema : String
  /-- The route that refers to it. -/
  route : Route
  deriving Repr

/-- The schemas that a route refers to and nothing binds. -/
def unboundIn (store : Store) (route : Route) : List Reference :=
  (route.references.map Text.pathRoot).filterMap fun root =>
    if isSchemaName root && ! store.isBound root then some ⟨root, route⟩ else none

/-- The first reference to each schema. -/
def firstReferences (refs : List Reference) : List Reference :=
  refs.foldl (fun out r => if out.any (·.schema == r.schema) then out else out ++ [r]) []

/-- The schemas that routes refer to and nothing binds, each with the first such route. -/
def dangling (store : Store) : List Reference :=
  firstReferences (store.routes.flatMap store.unboundIn)

end Store

end ModuleScaffold
