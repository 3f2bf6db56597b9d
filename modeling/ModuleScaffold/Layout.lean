import ModuleScaffold.Path

/-!
# Layout of a project

Where the files of a project lie: modules, routes and pages below the source directory, and the
shared middleware file, all relative to the root of the project.
-/

namespace ModuleScaffold

/-- The directories of a project. -/
structure Layout where
  /-- The source directory, relative to the root. -/
  sourceDir : Path := ⟨"src"⟩
  deriving DecidableEq, Repr

namespace Layout

/-- The directory of the modules. -/
def modulesDir (layout : Layout) : Path :=
  layout.sourceDir.join "modules"

/-- The directory of the routes. -/
def apiDir (layout : Layout) : Path :=
  layout.sourceDir.join "api"

/-- The directory of the pages. -/
def adminDir (layout : Layout) : Path :=
  layout.sourceDir.join "admin"

/-- The directory of the module of the given name. -/
def moduleDir (layout : Layout) (name : String) : Path :=
  layout.modulesDir.join name

/-- A route without the slashes at its start. -/
def relativeRoute (route : String) : String :=
  String.ofList (route.toList.dropWhile (· == '/'))

/-- The directory of the handlers of a route. -/
def routeDir (layout : Layout) (route : String) : Path :=
  layout.apiDir.join (relativeRoute route)

end Layout

/-- A project. -/
structure Project where
  /-- Its root. -/
  root : Path := ⟨"."⟩
  /-- Its directories. -/
  layout : Layout := {}
  /-- Its middleware file, relative to the root. -/
  middleware : Path := ⟨"src/api/middlewares.ts"⟩
  deriving DecidableEq, Repr

namespace Project

/-- Where a file lies that is given relative to the root. -/
def locate (project : Project) (file : Path) : Path :=
  project.root.join file.text

/-- Where the middleware file lies. -/
def middlewareFile (project : Project) : Path :=
  project.locate project.middleware

/-- The directory of the middleware file, relative to the root. -/
def middlewareDir (project : Project) : Path :=
  project.middleware.parent.getD ⟨""⟩

end Project

end ModuleScaffold
