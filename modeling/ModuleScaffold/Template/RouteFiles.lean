import ModuleScaffold.Schema.Naming
import ModuleScaffold.Template.Helpers
import ModuleScaffold.Text.Digits

/-!
# Templates of the routes

The handlers of a collection and of its items, and the wrapper that skips a middleware on some
paths.
-/

namespace ModuleScaffold

namespace Template

open Schema

/-- The number of items on a page if a query asks for none. -/
def pageSize : Nat := 50

/-- The handlers of a collection, given the module from which its service comes. -/
def collectionText (helpers : Helpers) (moduleImport : String) (m : Module) (model : Model) :
    Except Unknown String := do
  let items ← helpers.use .camel 9 model.plural
  let itemsKey ← helpers.use .snake 15 model.plural
  let item ← helpers.use .camel 28 model.singular
  let itemKey ← helpers.use .snake 30 model.singular
  return String.join [
    "import \x7b MedusaRequest, MedusaResponse \x7d from \"@medusajs/framework/http\"\n",
    "import \x7b ", m.constantName, " \x7d from \"", moduleImport, "\"\n",
    "import ", m.serviceName, " from \"", moduleImport, "/service\"\n",
    "import \x7b ", model.createValidator, "Type \x7d from \"./validators\"\n",
    "\n",
    "export const GET = async (req: MedusaRequest, res: MedusaResponse) => \x7b\n",
    "  const service: ", m.serviceName, " = req.scope.resolve(", m.constantName, ")\n",
    "\n",
    "  const [", items, ", count] = await service.listAndCount",
    model.pluralName, "(\n",
    "    req.filterableFields,\n",
    "    req.queryConfig\n",
    "  )\n",
    "\n",
    "  res.json(\x7b\n",
    "    ", itemsKey, ": ", items, ",\n",
    "    count,\n",
    "    offset: req.queryConfig.pagination?.skip ?? 0,\n",
    "    limit: req.queryConfig.pagination?.take ?? ", Text.decimal pageSize, ",\n",
    "  \x7d)\n",
    "\x7d\n",
    "\n",
    "export const POST = async (\n",
    "  req: MedusaRequest<", model.createValidator, "Type>,\n",
    "  res: MedusaResponse\n",
    ") => \x7b\n",
    "  const service: ", m.serviceName, " = req.scope.resolve(", m.constantName, ")\n",
    "\n",
    "  const ", item, " = await service.create", model.pluralName,
    "(req.validatedBody)\n",
    "\n",
    "  res.status(201).json(\x7b ", itemKey, ": ",
    item, " \x7d)\n",
    "\x7d\n"]

/-- The handlers of an item, given the module from which its service comes. -/
def itemText (helpers : Helpers) (moduleImport : String) (m : Module) (model : Model) :
    Except Unknown String := do
  let item ← helpers.use .camel 9 model.singular
  let itemKey ← helpers.use .snake 11 model.singular
  return String.join [
    "import \x7b MedusaRequest, MedusaResponse \x7d from \"@medusajs/framework/http\"\n",
    "import \x7b ", m.constantName, " \x7d from \"", moduleImport, "\"\n",
    "import ", m.serviceName, " from \"", moduleImport, "/service\"\n",
    "import \x7b ", model.updateValidator, "Type \x7d from \"../validators\"\n",
    "\n",
    "export const GET = async (req: MedusaRequest, res: MedusaResponse) => \x7b\n",
    "  const service: ", m.serviceName, " = req.scope.resolve(", m.constantName, ")\n",
    "\n",
    "  const ", item, " = await service.retrieve", model.name,
    "(req.params.id, req.queryConfig)\n",
    "\n",
    "  res.json(\x7b ", itemKey, ": ",
    item, " \x7d)\n",
    "\x7d\n",
    "\n",
    "export const POST = async (\n",
    "  req: MedusaRequest<", model.updateValidator, "Type>,\n",
    "  res: MedusaResponse\n",
    ") => \x7b\n",
    "  const service: ", m.serviceName, " = req.scope.resolve(", m.constantName, ")\n",
    "\n",
    "  const ", item, " = await service.update", model.pluralName,
    "(\x7b\n",
    "    id: req.params.id,\n",
    "    ...req.validatedBody,\n",
    "  \x7d)\n",
    "\n",
    "  res.json(\x7b ", itemKey, ": ",
    item, " \x7d)\n",
    "\x7d\n",
    "\n",
    "export const DELETE = async (req: MedusaRequest, res: MedusaResponse) => \x7b\n",
    "  const service: ", m.serviceName, " = req.scope.resolve(", m.constantName, ")\n",
    "\n",
    "  await service.delete", model.pluralName, "(req.params.id)\n",
    "\n",
    "  res.json(\x7b id: req.params.id, object: \"", itemKey,
    "\", deleted: true \x7d)\n",
    "\x7d\n"]

/-- The wrapper that skips a middleware. -/
def unlessPathText : String :=
  String.join [
    "import type \x7b\n",
    "  MedusaNextFunction,\n",
    "  MedusaRequest,\n",
    "  MedusaResponse,\n",
    "\x7d from \"@medusajs/framework/http\"\n",
    "\n",
    "type Middleware = (\n",
    "  req: MedusaRequest,\n",
    "  res: MedusaResponse,\n",
    "  next: MedusaNextFunction\n",
    ") => unknown\n",
    "\n",
    "/**\n",
    " * Skips `middleware` for requests whose path matches `pattern`.\n",
    " */\n",
    "export const unlessPath =\n",
    "  (pattern: RegExp, middleware: Middleware): Middleware =>\n",
    "  (req, res, next) => \x7b\n",
    "    if (pattern.test(req.path)) \x7b\n",
    "      return next()\n",
    "    \x7d\n",
    "    return middleware(req, res, next)\n",
    "  \x7d\n"]

end Template

end ModuleScaffold
