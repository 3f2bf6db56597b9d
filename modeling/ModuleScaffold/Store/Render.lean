import ModuleScaffold.Store.Order

/-!
# Writing a middleware file

A store is written in a fixed layout: a header, the imports, the declarations in dependency
order, and the registration with the routes under the banners of their groups. Blocks are
separated by empty lines; neighbouring schema constants share a block.

A store is not written if a route refers to a schema that nothing binds, or if declarations
depend on each other in a cycle.
-/

namespace ModuleScaffold

namespace Store

/-- The lines at the start of every written file. -/
def headerLines : List String :=
  ["// This file is generated by modgen. Routes, schemas and imports are merged",
   "// on every run; other statements and the comments above them are kept",
   "// as written."]

/-- The function that registers the routes. -/
def registrationName : String := "defineMiddlewares"

/-- Why a store cannot be written. -/
inductive Problem
  /-- A route refers to a schema that nothing binds. -/
  | dangling (schema : String) (method : Method) (matcher : String)
  /-- Declarations depend on each other; the names along the cycle, the first repeated. -/
  | cycle (labels : List String)
  deriving DecidableEq, Repr

/-- Fails at the first schema that a route refers to and nothing binds. -/
def checkReferences (store : Store) : Except Problem Unit :=
  match store.dangling with
  | [] => .ok ()
  | r :: _ => .error (.dangling r.schema r.route.method r.route.matcher)

/-! ### Blocks -/

/-- The statement of a schema constant. -/
def renderDefinition (d : Definition) : List Char :=
  (if d.exported then "export ".toList else []) ++ "const ".toList ++ d.name.toList
    ++ " = ".toList ++ d.expression.toList ++ [';']

/-- A block of lines, or none if there is no line. -/
def block (lines : List (List Char)) : List (List Char) :=
  if lines.isEmpty then [] else [Text.joinWith ['\n'] lines]

/-- The blocks of declarations, after the lines of the block of constants under way. -/
def declarationBlocks (pending : List (List Char)) : List Declaration → List (List Char)
  | [] => block pending
  | .schema d :: rest => declarationBlocks (pending ++ [renderDefinition d]) rest
  | .statement text :: rest => block pending ++ text.toList :: declarationBlocks [] rest

/-- The lines of routes, after a route of the group `before`, if there is one. -/
def renderRoutes (before : Option Route.Group) : List Route → List Char
  | [] => []
  | r :: rs =>
    let banner :=
      if before = some r.group then []
      else (if before.isSome then ['\n'] else [])
        ++ Text.spaces 4 ++ r.group.banner.toList ++ ['\n']
    banner ++ Text.spaces 4 ++ r.render ++ [',', '\n'] ++ renderRoutes (some r.group) rs

/-- The line of a further setting. -/
def renderSetting (setting : Setting) : List Char :=
  Text.spaces 2 ++ Value.renderKey setting.key ++ ':' :: ' ' :: (setting.value.toList ++ [',', '\n'])

/-- The statement that registers the routes. -/
def renderRegistration (store : Store) : List Char :=
  let routes := Route.sort store.routes
  "export default ".toList ++ registrationName.toList ++ "(\x7b\n".toList
    ++ (if routes.isEmpty then "  routes: [],\n".toList
        else "  routes: [\n".toList ++ renderRoutes none routes ++ "  ],\n".toList)
    ++ store.settings.flatMap renderSetting ++ "\x7d);".toList

/-- The blocks of a file, given the declarations in order. -/
def blocks (store : Store) (declarations : List Declaration) : List (List Char) :=
  block ((Import.sort store.imports).flatMap Import.render)
    ++ declarationBlocks [] declarations ++ [store.renderRegistration]

/-- The file, given the declarations in order. -/
def renderOrdered (store : Store) (declarations : List Declaration) : List Char :=
  Text.joinWith ['\n'] (headerLines.map String.toList) ++ ['\n', '\n']
    ++ Text.joinWith ['\n', '\n'] (store.blocks declarations) ++ ['\n']

/-- The text of the file. -/
def serialize (store : Store) : Except Problem String := do
  store.checkReferences
  match store.ordered with
  | .error labels => .error (.cycle labels)
  | .ok declarations => return String.ofList (store.renderOrdered declarations)

end Store

end ModuleScaffold
