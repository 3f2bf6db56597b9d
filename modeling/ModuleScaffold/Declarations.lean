import ModuleScaffold.Layout
import ModuleScaffold.Schema.Naming
import ModuleScaffold.Store.Define
import ModuleScaffold.Store.Render

/-!
# Declarations of a module

What a module adds to the middleware file. Every model has a schema for queries, and routes that
read and post its collection and its items: reading checks the query, posting checks the body.
Where the routes of other models lie below a collection, its query is not checked for them.
-/

namespace ModuleScaffold

namespace Declarations

open Schema

/-- The source of the middlewares. -/
def httpSource : String := "@medusajs/framework/http"

/-- The source of the function that makes query schemas. -/
def validatorsSource : String := "@medusajs/medusa/api/utils/validators"

/-- The middleware that checks a query. -/
def checkQuery : String := "validateAndTransformQuery"

/-- The middleware that checks a body. -/
def checkBody : String := "validateAndTransformBody"

/-- The function that makes query schemas. -/
def findParams : String := "createFindParams"

/-- The file of the wrapper that skips a middleware, relative to the directory of the routes. -/
def unlessPathFile : String := "utils/unless-path"

/-! ### Nested collections -/

/-- The characters with a meaning of their own in a regular expression, and the slash. -/
def specialMarks : List Char :=
  ['\\', '^', '$', '.', '|', '?', '*', '+', '(', ')', '[', ']', '\x7b', '\x7d', '/']

/-- A text as the regular expression that matches it alone. -/
def literalPattern (text : List Char) : List Char :=
  text.flatMap fun c => if specialMarks.contains c then ['\\', c] else [c]

/-- The routes of other models below the collection of a model, each without the collection's
route and the slash behind it. -/
def nestedRoutes (m : Module) (model : Model) : List (List Char) :=
  let start := (m.basePath model).toList ++ ['/']
  ((m.models.filter (·.name != model.name)).map fun other => (m.basePath other).toList).filterMap
    fun path => if start.isPrefixOf path then some (path.drop start.length) else none

/-- One of several patterns. -/
def alternatives : List (List Char) → List Char
  | [pattern] => pattern
  | patterns => '(' :: (Text.joinWith ['|'] patterns ++ [')'])

/-- The regular expression for the collections nested below that of a model, if there are any. -/
def nestedPattern (m : Module) (model : Model) : Option String :=
  let nested := nestedRoutes m model
  if nested.isEmpty then none
  else some (String.ofList ('^' :: (literalPattern (m.basePath model).toList ++ ['\\', '/']
    ++ alternatives (nested.map literalPattern))))

/-! ### Middlewares -/

/-- The check of a query for the items of a model. -/
def queryCheck (model : Model) (isList : Bool) : Call :=
  ⟨checkQuery, [.identifier model.listSchema,
    .object [("defaults", .strings model.defaultFields), ("isList", .boolean isList)]]⟩

/-- The check of a body. -/
def bodyCheck (validator : String) : Call :=
  ⟨checkBody, [.identifier validator]⟩

/-- The middleware of the route that reads a collection. -/
def listMiddleware (m : Module) (model : Model) : Call :=
  match nestedPattern m model with
  | some pattern => .unlessPath pattern "" (queryCheck model true)
  | none => queryCheck model true

/-- The routes of a model. -/
def routes (m : Module) (model : Model) : List Route :=
  let base := m.basePath model
  let item := base ++ "/:id"
  [⟨.get, base, [listMiddleware m model], []⟩,
   ⟨.post, base, [bodyCheck model.createValidator], []⟩,
   ⟨.get, item, [queryCheck model false], []⟩,
   ⟨.post, item, [bodyCheck model.updateValidator], []⟩]

/-! ### The declarations -/

/-- The import specifier of the checks of a model. -/
def validatorsImport (layout : Layout) (middlewareDir : Path) (m : Module) (model : Model) :
    String :=
  Path.importPath middlewareDir ((layout.routeDir (m.basePath model)).join "validators")

/-- The import specifier of the wrapper that skips a middleware. -/
def unlessPathImport (layout : Layout) (middlewareDir : Path) : String :=
  Path.importPath middlewareDir (layout.apiDir.join unlessPathFile)

/-- The imports of a model. -/
def addImports (layout : Layout) (middlewareDir : Path) (m : Module) (model : Model)
    (store : Store) : Store :=
  let store := store.addImports httpSource [Store.registrationName, checkBody, checkQuery]
  let store := store.addImport validatorsSource findParams
  store.addImports (validatorsImport layout middlewareDir m model)
    [model.createValidator, model.updateValidator]

/-- Why the declarations of a model cannot be made. -/
inductive Problem
  /-- The schema constant is refused. -/
  | definition (reason : Source.Rejection)
  /-- A route cannot be written. -/
  | route (reason : Value.Problem)
  deriving DecidableEq, Repr

/-- The declarations of a model. -/
def ofModel (layout : Layout) (middlewareDir : Path) (m : Module) (model : Model) :
    Except Problem Store := do
  let store := addImports layout middlewareDir m model .empty
  let store ← (store.addDefinition model.listSchema (findParams ++ "()") true).mapError .definition
  let store :=
    if (nestedPattern m model).isSome then
      store.addImport (unlessPathImport layout middlewareDir) Call.unlessPathName
    else store
  ((routes m model).foldlM Store.addRoute store).mapError .route

/-- A store with the declarations of further models on top. -/
def addModels (layout : Layout) (middlewareDir : Path) (m : Module) (store : Store) :
    List Model → Except Problem Store
  | [] => .ok store
  | model :: rest => do
    let added ← ofModel layout middlewareDir m model
    let store ← (store.merge added).mapError .route
    addModels layout middlewareDir m store rest

/-- The declarations of a module. -/
def ofModule (layout : Layout) (middlewareDir : Path) (m : Module) : Except Problem Store :=
  addModels layout middlewareDir m .empty m.models

end Declarations

end ModuleScaffold
