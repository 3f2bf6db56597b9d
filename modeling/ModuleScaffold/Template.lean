import ModuleScaffold.Layout
import ModuleScaffold.Schema.Naming

/-!
# Templates

The files that are generated, apart from the shared middleware file. Each has a template, which
is rendered once for the project, once for a module or once for a model, and a place in the
layout of the project.
-/

namespace ModuleScaffold

/-- The templates. -/
inductive Template
  /-- The service of a module. -/
  | moduleService
  /-- The registration of a module. -/
  | moduleIndex
  /-- The definition of a model. -/
  | model
  /-- The checks of a model. -/
  | validators
  /-- The routes of a collection. -/
  | routeCollection
  /-- The routes of an item. -/
  | routeItem
  /-- The page that lists items. -/
  | listPage
  /-- The form for new items. -/
  | createForm
  /-- The form that changes an item. -/
  | editForm
  /-- The wrapper that skips a middleware. -/
  | unlessPath
  /-- The client of the pages. -/
  | sdk
  deriving DecidableEq, Repr

namespace Template

open Schema

/-- The templates in order. -/
def all : List Template :=
  [moduleService, moduleIndex, model, validators, routeCollection, routeItem, listPage,
   createForm, editForm, unlessPath, sdk]

/-- The name of a template. -/
def name : Template → String
  | moduleService => "module_service"
  | moduleIndex => "module_index"
  | model => "model"
  | validators => "validators"
  | routeCollection => "route_collection"
  | routeItem => "route_item"
  | listPage => "admin_list_page"
  | createForm => "admin_create"
  | editForm => "admin_edit"
  | unlessPath => "unless_path"
  | sdk => "admin_sdk"

/-- The template of the given name. -/
def ofName? (name : String) : Option Template :=
  all.find? (·.name == name)

/-- What a template is rendered for. -/
inductive Scope
  /-- The project; the file is left alone if it is there. -/
  | project
  /-- A module. -/
  | module
  /-- A model. -/
  | model
  deriving DecidableEq, Repr

/-- The name of a scope. -/
def Scope.name : Scope → String
  | project => "project"
  | module => "module"
  | model => "model"

/-- What a template is rendered for. -/
def scope : Template → Scope
  | unlessPath | sdk => .project
  | moduleService | moduleIndex => .module
  | _ => .model

/-- The templates of a scope, in order. -/
def ofScope (scope : Scope) : List Template :=
  all.filter (·.scope == scope)

/-! ### Places -/

/-- What remains of a text behind all leading repetitions of another one. -/
def withoutLeading (lead : List Char) : Nat → List Char → List Char
  | 0, text => text
  | fuel + 1, text =>
    if lead.isPrefixOf text then withoutLeading lead fuel (text.drop lead.length) else text

/-- The route of a page: that of its collection, without the part that all pages share. -/
def pageRoute (route : String) : String :=
  String.ofList (withoutLeading "/admin/".toList route.toList.length route.toList)

/-- The client of the pages, without its extension. -/
def sdkTarget (layout : Layout) : Path :=
  layout.adminDir.join "lib/sdk"

/-- The file of a form of a model. -/
def formPath (layout : Layout) (action : String) (model : Model) : Path :=
  let name := Text.Style.kebab.apply model.name
  ((layout.adminDir.join "components").join name).join (action ++ "-" ++ name ++ "-form.tsx")

/-- The file of a template for a model. -/
def modelPath (template : Template) (layout : Layout) (m : Module) (model : Model) :
    Option Path :=
  let route := m.basePath model
  match template with
  | .model =>
    some (((layout.moduleDir m.name).join "models").join
      (Text.Style.snake.apply model.name ++ ".ts"))
  | validators => some ((layout.routeDir route).join "validators.ts")
  | routeCollection => some ((layout.routeDir route).join "route.ts")
  | routeItem => some ((layout.routeDir route).join "[id]/route.ts")
  | listPage =>
    some (((layout.adminDir.join "routes").join (pageRoute route)).join "page.tsx")
  | createForm => some (formPath layout "create" model)
  | editForm => some (formPath layout "edit" model)
  | _ => none

/-- The file of a template, relative to the root of the project. A template for models needs a
model. -/
def outputPath (template : Template) (layout : Layout) (m : Module) (model? : Option Model) :
    Option Path :=
  match template with
  | unlessPath => some (layout.apiDir.join "utils/unless-path.ts")
  | sdk => some (layout.adminDir.join "lib/sdk.ts")
  | moduleService => some ((layout.moduleDir m.name).join "service.ts")
  | moduleIndex => some ((layout.moduleDir m.name).join "index.ts")
  | t => model?.bind fun model => t.modelPath layout m model

end Template

end ModuleScaffold
