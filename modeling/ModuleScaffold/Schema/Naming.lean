import ModuleScaffold.Schema
import ModuleScaffold.Schema.Check
import ModuleScaffold.Text.Words

/-!
# Names of what is generated

The names that a module and its models have in generated text: routes, schemas, validators,
services and columns.
-/

namespace ModuleScaffold

namespace Schema

/-- A text without the given ending, if it has that ending. -/
def withoutEnding (text ending : String) : Option String :=
  if ending.toList.isSuffixOf text.toList then
    some (String.ofList (text.toList.take (text.toList.length - ending.toList.length)))
  else none

namespace Model

/-- The name of the model in the plural. If the name ends in the word for one item, that ending
is replaced by the word for several. -/
def pluralName (model : Model) : String :=
  let singular := Text.Style.pascal.apply model.singular
  match withoutEnding model.name singular with
  | some stem =>
    if singular.isEmpty then model.name ++ "s"
    else stem ++ Text.Style.pascal.apply model.plural
  | none => model.name ++ "s"

/-- The name of the schema for queries of the model's collection. -/
def listSchema (model : Model) : String :=
  "Get" ++ model.pluralName ++ "Schema"

/-- The name of the check for new items. -/
def createValidator (model : Model) : String :=
  "PostAdminCreate" ++ model.name

/-- The name of the check for changes of an item. -/
def updateValidator (model : Model) : String :=
  "PostAdminUpdate" ++ model.name

end Model

/-- The column that holds a field; a relation has one if it belongs to another model. -/
def Field.column? (field : Field) : Option String :=
  match field.relation with
  | none => some field.name
  | some relation => if relation.kind = .belongsTo then some (field.name ++ "_id") else none

/-- The columns that a query gives if it asks for none. -/
def Model.defaultFields (model : Model) : List String :=
  "id" :: (model.fields.filterMap Field.column? ++ ["created_at", "updated_at"])

namespace Module

/-- The route of a model's collection. -/
def basePath (m : Module) (model : Model) : String :=
  if model.isParent then "/admin/" ++ m.plural
  else match model.parent with
    | some parent => "/admin/" ++ parent.route ++ "/" ++ model.plural
    | none => "/admin/" ++ m.plural ++ "/" ++ model.plural

/-- The name of the module's service. -/
def serviceName (m : Module) : String :=
  Text.Style.pascal.apply m.name ++ "ModuleService"

/-- The constant that holds the module's name. -/
def constantName (m : Module) : String :=
  Text.capitalText (Text.Style.snake.apply m.name) ++ "_MODULE"

end Module

end Schema

end ModuleScaffold
