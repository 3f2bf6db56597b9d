import ModuleScaffold.Template
import ModuleScaffold.Template.AdminFiles
import ModuleScaffold.Template.ModuleFiles
import ModuleScaffold.Template.RouteFiles

/-!
# Rendering templates

`Renderer.render` renders one template, `Renderer.renderModule` all files of a module and its
models, and `Renderer.renderProject` the files that are shared by all modules.
-/

namespace ModuleScaffold

open Schema

/-- What templates are rendered with. -/
structure Renderer where
  /-- The table of helpers. -/
  helpers : Template.Helpers := .standard
  /-- The directories of the project. -/
  layout : Layout := {}

/-- Why a template cannot be rendered. -/
inductive RenderProblem
  /-- It needs a model. -/
  | noModel (moduleName : String)
  /-- It uses a helper that there is not. -/
  | unknownHelper (use : Template.Unknown)
  deriving DecidableEq, Repr

/-- A template that cannot be rendered. -/
structure RenderFailure where
  /-- The template. -/
  template : Template
  /-- The reason. -/
  problem : RenderProblem
  deriving DecidableEq, Repr

/-- The reason in words. -/
def RenderFailure.detail (failure : RenderFailure) : String :=
  match failure.problem with
  | .noModel moduleName => "template needs a model of module '" ++ moduleName ++ "'"
  | .unknownHelper use =>
    "unknown filter: filter " ++ use.helper ++ " is unknown (in " ++ failure.template.name ++ ":"
      ++ Text.decimal use.line ++ ")"

namespace Renderer

/-- The directory of the file of a template for a model. -/
def outputDir (renderer : Renderer) (template : Template) (m : Module) (model : Model) : Path :=
  ((template.outputPath renderer.layout m (some model)).bind Path.parent).getD
    (renderer.layout.routeDir (m.basePath model))

/-- The import specifier of the module from the file of a template. -/
def moduleImport (renderer : Renderer) (template : Template) (m : Module) (model : Model) :
    String :=
  Path.importPath (renderer.outputDir template m model) (renderer.layout.moduleDir m.name)

/-- The import specifier of the client from the file of a template. -/
def sdkImport (renderer : Renderer) (template : Template) (m : Module) (model : Model) : String :=
  Path.importPath (renderer.outputDir template m model) (Template.sdkTarget renderer.layout)

/-- A template for models as text; the other templates give none. -/
def modelText (renderer : Renderer) (template : Template) (m : Module) (model : Model) :
    Except Template.Unknown String :=
  let moduleImport := renderer.moduleImport template m model
  let sdkImport := renderer.sdkImport template m model
  match template with
  | .model => Template.modelText renderer.helpers model
  | .validators => .ok (Template.validatorsText model)
  | .routeCollection => Template.collectionText renderer.helpers moduleImport m model
  | .routeItem => Template.itemText renderer.helpers moduleImport m model
  | .listPage => Template.listPageText renderer.helpers sdkImport m model
  | .createForm => Template.createFormText renderer.helpers sdkImport m model
  | .editForm => Template.editFormText renderer.helpers sdkImport m model
  | .moduleService | .moduleIndex | .unlessPath | .sdk => .ok ""

/-- A template as text. A template for models needs a model. -/
def text (renderer : Renderer) (template : Template) (m : Module) (model? : Option Model) :
    Except RenderProblem String :=
  match template with
  | .moduleService => (Template.moduleServiceText renderer.helpers m).mapError .unknownHelper
  | .moduleIndex => (Template.moduleIndexText renderer.helpers m).mapError .unknownHelper
  | .unlessPath => .ok Template.unlessPathText
  | .sdk => .ok Template.sdkText
  | t =>
    match model? with
    | some model => (renderer.modelText t m model).mapError .unknownHelper
    | none => .error (.noModel m.name)

/-- A template as text, or the template and why it cannot be rendered. -/
def render (renderer : Renderer) (template : Template) (m : Module) (model? : Option Model) :
    Except RenderFailure String :=
  (renderer.text template m model?).mapError (⟨template, ·⟩)

/-- A generated file. -/
structure File where
  /-- Where it lies, relative to the root of the project. -/
  path : Path
  /-- What it holds. -/
  text : String
  deriving DecidableEq, Repr

/-- The files of templates. -/
def renderAll (renderer : Renderer) (m : Module) (model? : Option Model) :
    List Template → Except RenderFailure (List File)
  | [] => .ok []
  | t :: ts =>
    match t.outputPath renderer.layout m model? with
    | none => renderer.renderAll m model? ts
    | some path => do
      let text ← renderer.render t m model?
      return ⟨path, text⟩ :: (← renderer.renderAll m model? ts)

/-- The files of models. -/
def renderModels (renderer : Renderer) (m : Module) : List Model → Except RenderFailure (List File)
  | [] => .ok []
  | model :: rest => do
    let files ← renderer.renderAll m (some model) (Template.ofScope .model)
    return files ++ (← renderer.renderModels m rest)

/-- The files of a module and its models. -/
def renderModule (renderer : Renderer) (m : Module) : Except RenderFailure (List File) := do
  let files ← renderer.renderAll m none (Template.ofScope .module)
  return files ++ (← renderer.renderModels m m.models)

/-- The files that all modules share. -/
def renderProject (renderer : Renderer) (m : Module) : Except RenderFailure (List File) :=
  renderer.renderAll m none (Template.ofScope .project)

end Renderer

end ModuleScaffold
