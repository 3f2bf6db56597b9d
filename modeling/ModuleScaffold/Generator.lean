import ModuleScaffold.Files
import ModuleScaffold.Source.Middlewares

/-!
# Generating a project's files

A generator renders the files of modules, writes those that have changed, and merges the
declarations of the modules into the middleware file, which is read and written once. Files that
all modules share are only written if they are not there.

* `Generator.generate` writes; a run that fails keeps what it has written.
* `Generator.check` does the same except for the writing.
* `Generator.readMiddleware` reads the middleware file.
-/

namespace ModuleScaffold

open Schema

/-- A generator over a file system. -/
structure Generator (m : Type → Type) where
  /-- The project. -/
  project : Project := {}
  /-- The file system. -/
  files : Files m
  /-- What generated texts go through before they are written. -/
  formatter : Formatter := .identity
  /-- The table of helpers of the templates. -/
  helpers : Template.Helpers := .standard

/-- What a run has done. -/
structure Summary where
  /-- The number of modules. -/
  modules : Nat
  /-- The files that were written, relative to the root of the project. -/
  written : List Path := []
  /-- The number of files that had the generated text already. -/
  unchanged : Nat := 0
  /-- The number of routes in the middleware file. -/
  routes : Nat := 0
  /-- What was left out of the middleware file. -/
  warnings : List Source.Warning := []
  deriving DecidableEq, Repr

/-- What a run would do. -/
structure Forecast where
  /-- The number of modules. -/
  modules : Nat
  /-- The number of files that it would produce. -/
  files : Nat
  /-- The number of routes in the middleware file. -/
  routes : Nat
  /-- What would be left out of the middleware file. -/
  warnings : List Source.Warning
  deriving DecidableEq, Repr

/-- What is read from a middleware file. -/
structure Reading where
  /-- Its declarations. -/
  store : Store := {}
  /-- What was left out. -/
  warnings : List Source.Warning := []
  deriving Repr

/-! ### Modules -/

/-- The files of modules, each of which is checked first. -/
def renderModules (renderer : Renderer) : List Module → Except Failure (List Renderer.File)
  | [] => .ok []
  | m :: ms => do
    m.check.mapError (.schema ⟨m.name⟩)
    let files ← (renderer.renderModule m).mapError .template
    return files ++ (← renderModules renderer ms)

/-- A store with the declarations of modules on top. -/
def mergeModules (project : Project) (store : Store) : List Module → Except Failure Store
  | [] => .ok store
  | m :: ms => do
    let added ← (Declarations.ofModule project.layout project.middlewareDir m).mapError
      Failure.ofDeclarations
    let store ← (store.merge added).mapError .value
    mergeModules project store ms

namespace Generator

variable {m : Type → Type} [Monad m]

/-- The renderer of the templates. -/
def renderer (g : Generator m) : Renderer :=
  ⟨g.helpers, g.project.layout⟩

/-- What the middleware file declares; nothing if it is not there. -/
def readMiddleware (g : Generator m) : Run m Reading := do
  match ← g.files.read g.project.middlewareFile with
  | none => return {}
  | some text =>
    let (store, warnings) := Source.readMiddlewares text
    return ⟨store, warnings⟩

/-- What the middleware file will declare. -/
def mergedMiddleware (g : Generator m) (modules : List Module) : Run m Reading := do
  let reading ← g.readMiddleware
  let store ← Run.ofExcept id (mergeModules g.project reading.store modules)
  return { reading with store }

/-- Writes a file, given relative to the root, unless it has the text already. -/
def writeFile (g : Generator m) (path : Path) (text : String) (summary : Summary) :
    Run m Summary := do
  let target := g.project.locate path
  let text ← Run.ofExcept .format (g.formatter target text)
  if (← g.files.read target) = some text then
    return { summary with unchanged := summary.unchanged + 1 }
  else
    g.files.write target text
    return { summary with written := summary.written ++ [path] }

/-- Writes files. -/
def writeAll (g : Generator m) (summary : Summary) : List Renderer.File → Run m Summary
  | [] => return summary
  | f :: fs => do g.writeAll (← g.writeFile f.path f.text summary) fs

/-- Writes those of the shared files that are not there. -/
def writeMissing (g : Generator m) (summary : Summary) : List Renderer.File → Run m Summary
  | [] => return summary
  | f :: fs => do
    match ← g.files.read (g.project.locate f.path) with
    | some _ => g.writeMissing summary fs
    | none => g.writeMissing (← g.writeFile f.path f.text summary) fs

/-- The shared files for modules. -/
def sharedFiles (g : Generator m) (modules : List Module) : Except Failure (List Renderer.File) :=
  match modules with
  | [] => .ok []
  | first :: _ => (g.renderer.renderProject first).mapError .template

/-- Generates the files of modules. -/
def generate (g : Generator m) (modules : List Module) : Run m Summary := do
  let files ← Run.ofExcept id (renderModules g.renderer modules)
  let summary ← g.writeAll { modules := modules.length } files
  let shared ← Run.ofExcept id (g.sharedFiles modules)
  let summary ← g.writeMissing summary shared
  let reading ← g.mergedMiddleware modules
  let text ← Run.ofExcept .store reading.store.serialize
  let summary ← g.writeFile g.project.middleware text summary
  return { summary with routes := reading.store.routes.length, warnings := reading.warnings }

/-- Finds out what generating the files of modules would do. -/
def check (g : Generator m) (modules : List Module) : Run m Forecast := do
  let files ← Run.ofExcept id (renderModules g.renderer modules)
  let reading ← g.mergedMiddleware modules
  let _ ← Run.ofExcept .store reading.store.serialize
  return { modules := modules.length, files := files.length + 1,
           routes := reading.store.routes.length, warnings := reading.warnings }

end Generator

end ModuleScaffold
