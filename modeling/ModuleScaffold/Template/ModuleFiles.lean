import ModuleScaffold.Schema.Naming
import ModuleScaffold.Template.Helpers
import ModuleScaffold.Text.NameSet

/-!
# Templates of a module's own files

The service and the registration of a module, and the definition and the checks of its models.
In the texts of templates, curly brackets are written by their code.
-/

namespace ModuleScaffold

namespace Template

open Schema

/-! ### The module -/

/-- The service of a module. -/
def moduleServiceText (helpers : Helpers) (m : Module) : Except Unknown String := do
  let imports ← m.models.mapM fun model => do
    let file ← helpers.use .snake 3 model.name
    return String.join ["import ", model.name, " from \"./models/", file, "\"\n"]
  return String.join [
    "import \x7b MedusaService \x7d from \"@medusajs/framework/utils\"\n",
    String.join imports,
    "\n",
    "class ", m.serviceName, " extends MedusaService(\x7b\n",
    String.join (m.models.map fun model => String.join ["  ", model.name, ",\n"]),
    "\x7d) \x7b\x7d\n",
    "\n",
    "export default ", m.serviceName, "\n"]

/-- The registration of a module. -/
def moduleIndexText (helpers : Helpers) (m : Module) : Except Unknown String := do
  let key ← helpers.use .snake 4 m.name
  return String.join [
    "import \x7b Module \x7d from \"@medusajs/framework/utils\"\n",
    "import ", m.serviceName, " from \"./service\"\n",
    "\n",
    "export const ", m.constantName, " = \"", key, "\"\n",
    "\n",
    "export default Module(", m.constantName, ", \x7b\n",
    "  service: ", m.serviceName, ",\n",
    "\x7d)\n"]

/-! ### The definition of a model -/

/-- A text that is there and not empty. -/
def filled (text : Option String) : Option String :=
  text.filter (! ·.isEmpty)

/-- Further calls. -/
def chain (field : Field) : String :=
  String.join (field.chainables.map ("." ++ ·))

/-- An option of a relation. -/
def relationOption (key : String) (value : Option String) : String :=
  match filled value with
  | some text => String.join [" ", key, ": \"", text, "\","]
  | none => ""

/-- The options of a relation. -/
def relationOptions (relation : Relation) : String :=
  let options := relationOption "mappedBy" relation.mappedBy
    ++ relationOption "pivotTable" relation.through
  if options.isEmpty then "" else String.join [", \x7b", options, " \x7d"]

/-- The function that defines a field of a type. -/
def definer : FieldType → String
  | .date => "dateTime"
  | type => type.name

/-- A field in the definition of its model. -/
def fieldText (field : Field) : String :=
  match field.relation with
  | some relation =>
    String.join ["  ", field.name, ": model.", relation.kind.name, "(() => ", relation.model,
      relationOptions relation, ")", chain field, ",\n"]
  | none => String.join ["  ", field.name, ": model.", definer field.type, "()", chain field, ",\n"]

/-- The other models that a model is related to, in ascending order. -/
def relatedModels (model : Model) : List String :=
  Text.nameSet ((model.fields.filterMap fun f => f.relation.map (·.model)).filter (· != model.name))

/-- The definition of a model. -/
def modelText (helpers : Helpers) (model : Model) : Except Unknown String := do
  let imports ← (relatedModels model).mapM fun related => do
    let file ← helpers.use .snake 3 related
    return String.join ["import ", related, " from \"./", file, "\"\n"]
  let key ← helpers.use .snake 6 model.name
  return String.join [
    "import \x7b model \x7d from \"@medusajs/framework/utils\"\n",
    String.join imports,
    "\n",
    "const ", model.name, " = model.define(\"", key, "\", \x7b\n",
    "  id: model.id().primaryKey(),\n",
    String.join (model.fields.map fieldText),
    "\x7d)\n",
    "\n",
    "export default ", model.name, "\n"]

/-! ### The checks of a model -/

/-- The check of the values of a type. -/
def checkerOf : FieldType → String
  | .text => "string()"
  | .number => "number()"
  | .boolean => "boolean()"
  | .date => "coerce.date()"

/-- The further check on the values of a field. -/
def furtherCheck (field : Field) : String :=
  match filled field.validation with
  | some validation => "." ++ validation
  | none => ""

/-- The check of a field; of the relations only those to an owner have one. -/
def checkText (field : Field) : String :=
  match field.relation with
  | none =>
    String.join ["  ", field.name, ": z.", checkerOf field.type, furtherCheck field,
      if field.chainables.contains "nullable()" then ".nullable()" else "", ",\n"]
  | some relation =>
    if relation.kind = .belongsTo then String.join ["  ", field.name, "_id: z.string(),\n"] else ""

/-- The checks of a model. -/
def validatorsText (model : Model) : String :=
  String.join [
    "import \x7b z \x7d from \"zod\"\n",
    "\n",
    "export const ", model.createValidator, " = z.object(\x7b\n",
    String.join (model.fields.map checkText),
    "\x7d)\n",
    "\n",
    "export const ", model.updateValidator, " = ", model.createValidator, ".partial()\n",
    "\n",
    "export type ", model.createValidator, "Type = z.infer<typeof ", model.createValidator, ">\n",
    "export type ", model.updateValidator, "Type = z.infer<typeof ", model.updateValidator, ">\n"]

end Template

end ModuleScaffold
