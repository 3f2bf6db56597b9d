import ModuleScaffold.Failure
import ModuleScaffold.Source.Middlewares
import ModuleScaffold.Store.Define

/-!
# Changes of a store

The calls by which a program changes a store, as data, so that whole runs of them can be spoken of.
A call ends with a store and, if it fails, with its failure; what it has changed before it fails is
not taken back. Merging is the only call that takes several steps, so it is the only one for which
that matters.

Main definitions: `Change.run`, what a call makes of a store, and `Store.built`, the store that
calls make of the empty one.
-/

namespace ModuleScaffold

namespace Store

/-- The store with routes added up to the first that cannot be written, and the reason for that
one. -/
def addRoutes : Store → List Route → Store × Option Value.Problem
  | store, [] => (store, none)
  | store, route :: routes =>
    match store.addRoute route with
    | .ok next => addRoutes next routes
    | .error p => (store, some p)

/-- The store with the declarations of another one on top, added one after the other. A route that
cannot be written ends the merge where it stands. -/
def mergeStepwise (store other : Store) : Store × Option Value.Problem :=
  let store := other.imports.foldl (fun s i => s.addImports i.source i.names) store
  let store := other.definitions.foldl insertDefinition store
  match store.addRoutes other.routes with
  | (store, some p) => (store, some p)
  | (store, none) =>
    let store := other.statements.foldl addStatement store
    (other.settings.foldl (fun s c => s.addSetting c.key c.value) store, none)

end Store

/-- A call that changes a store. -/
inductive Change
  /-- A name is added to the import of a source. -/
  | addImport (source name : String)
  /-- Names are added to the import of a source. -/
  | addImports (source : String) (names : List String)
  /-- A schema constant is checked and defined. -/
  | addDefinition (name expression : String) (exported : Bool)
  /-- A route is added. -/
  | addRoute (route : Route)
  /-- A statement is kept. -/
  | addStatement (statement : String)
  /-- A further setting is added. -/
  | addSetting (key value : String)
  /-- The store is replaced by what a source text declares. -/
  | read (source : String)
  /-- What calls make of the empty store is merged in. -/
  | merge (changes : List Change)

mutual

/-- What a call makes of a store, and its failure. -/
def Change.run (store : Store) : Change → Store × Option Failure
  | .addImport source name => (store.addImport source name, none)
  | .addImports source names => (store.addImports source names, none)
  | .addDefinition name expression exported =>
    match store.addDefinition name expression exported with
    | .ok next => (next, none)
    | .error reason => (store, some (.source reason))
  | .addRoute route =>
    match store.addRoute route with
    | .ok next => (next, none)
    | .error p => (store, some (.value p))
  | .addStatement statement => (store.addStatement statement, none)
  | .addSetting key value => (store.addSetting key value, none)
  | .read source => ((Source.readMiddlewares source).1, none)
  | .merge changes =>
    let merged := store.mergeStepwise (Change.runAll .empty changes)
    (merged.1, merged.2.map .value)

/-- What calls make of a store, one after the other, whether they fail or not. -/
def Change.runAll (store : Store) : List Change → Store
  | [] => store
  | change :: changes => Change.runAll (change.run store).1 changes

end

/-- What calls make of the empty store. -/
def Store.built (changes : List Change) : Store :=
  Change.runAll .empty changes

end ModuleScaffold
