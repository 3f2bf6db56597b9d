import ModuleScaffold.Schema.Naming
import ModuleScaffold.Template.Helpers

/-!
# Templates of the pages

The page that lists the items of a model, the forms that create and change one, and the client
that they share.
-/

namespace ModuleScaffold

namespace Template

open Schema

/-- The columns of a list: those that a query gives, without the identifier. -/
def listColumns (model : Model) : List String :=
  model.defaultFields.filter (· != "id")

/-- The fields of a form: those that stand for no relation. -/
def formFields (model : Model) : List Field :=
  model.fields.filter (·.relation.isNone)

/-- The page that lists items, given the module from which the client comes. -/
def listPageText (helpers : Helpers) (sdkImport : String) (m : Module) (model : Model) :
    Except Unknown String := do
  let columns := listColumns model
  let key ← helpers.use .snake 16 model.plural
  let title ← helpers.use .title 24 model.plural
  let headers ← columns.mapM fun column => do
    let label ← helpers.use .title 33 column
    return String.join ["            <Table.HeaderCell>", label, "</Table.HeaderCell>\n"]
  return String.join [
    "import \x7b defineRouteConfig \x7d from \"@medusajs/admin-sdk\"\n",
    "import \x7b Container, Heading, Table, Button \x7d from \"@medusajs/ui\"\n",
    "import \x7b useQuery \x7d from \"@tanstack/react-query\"\n",
    "import \x7b Link \x7d from \"react-router-dom\"\n",
    "import \x7b sdk \x7d from \"", sdkImport, "\"\n",
    "\n",
    "type ", model.name, "Row = \x7b\n",
    "  id: string\n",
    String.join (columns.map fun column => String.join ["  ", column, ": unknown\n"]),
    "\x7d\n",
    "\n",
    "const ", model.pluralName, "Page = () => \x7b\n",
    "  const \x7b data, isLoading \x7d = useQuery(\x7b\n",
    "    queryKey: [\"", key, "\"],\n",
    "    queryFn: () =>\n",
    "      sdk.client.fetch<\x7b ", key, ": ", model.name,
    "Row[]; count: number \x7d>(\"", m.basePath model, "\"),\n",
    "  \x7d)\n",
    "\n",
    "  return (\n",
    "    <Container className=\"divide-y p-0\">\n",
    "      <div className=\"flex items-center justify-between px-6 py-4\">\n",
    "        <Heading level=\"h2\">", title, "</Heading>\n",
    "        <Button size=\"small\" variant=\"secondary\" asChild>\n",
    "          <Link to=\"create\">Create</Link>\n",
    "        </Button>\n",
    "      </div>\n",
    "      <Table>\n",
    "        <Table.Header>\n",
    "          <Table.Row>\n",
    String.join headers,
    "          </Table.Row>\n",
    "        </Table.Header>\n",
    "        <Table.Body>\n",
    "          \x7bisLoading ? null : data?.", key, ".map((row) => (\n",
    "            <Table.Row key=\x7brow.id\x7d>\n",
    String.join (columns.map fun column => String.join [
      "              <Table.Cell>\x7bString(row.", column, " ?? \"\")\x7d</Table.Cell>\n"]),
    "            </Table.Row>\n",
    "          ))\x7d\n",
    "        </Table.Body>\n",
    "      </Table>\n",
    "    </Container>\n",
    "  )\n",
    "\x7d\n",
    "\n",
    "export const config = defineRouteConfig(\x7b\n",
    "  label: \"", title, "\",\n",
    "\x7d)\n",
    "\n",
    "export default ", model.pluralName, "Page\n"]

/-! ### Forms -/

/-- The type of the values of a field in a form. -/
def inputType : FieldType → String
  | .number => "number"
  | .boolean => "boolean"
  | .text | .date => "string"

/-- The kind of the input of a field, if it is not the common one. -/
def inputKind : FieldType → String
  | .number => "type=\"number\" "
  | .date => "type=\"date\" "
  | .text | .boolean => ""

/-- The input of a field, with the line of the template in which its label stands. -/
def inputText (helpers : Helpers) (line : Nat) (field : Field) : Except Unknown String := do
  let label ← helpers.use .title line field.name
  return String.join [
    "        <div className=\"flex flex-col gap-y-2\">\n",
    "          <Label htmlFor=\"", field.name, "\">", label, "</Label>\n",
    "          <Input id=\"", field.name, "\" ", inputKind field.type, "\x7b...form.register(\"",
    field.name, "\")\x7d />\n",
    "        </div>\n"]

/-- The form that creates an item, given the module from which the client comes. -/
def createFormText (helpers : Helpers) (sdkImport : String) (m : Module) (model : Model) :
    Except Unknown String := do
  let fields := formFields model
  let key ← helpers.use .snake 21 model.plural
  let title ← helpers.use .title 28 model.singular
  let inputs ← fields.mapM (inputText helpers 32)
  return String.join [
    "import \x7b Button, FocusModal, Heading, Input, Label \x7d from \"@medusajs/ui\"\n",
    "import \x7b useMutation, useQueryClient \x7d from \"@tanstack/react-query\"\n",
    "import \x7b useForm \x7d from \"react-hook-form\"\n",
    "import \x7b sdk \x7d from \"", sdkImport, "\"\n",
    "\n",
    "type Create", model.name, "Form = \x7b\n",
    String.join (fields.map fun f => String.join ["  ", f.name, ": ", inputType f.type, "\n"]),
    "\x7d\n",
    "\n",
    "export const Create", model.name,
    "Form = (\x7b onSuccess \x7d: \x7b onSuccess?: () => void \x7d) => \x7b\n",
    "  const queryClient = useQueryClient()\n",
    "  const form = useForm<Create", model.name, "Form>()\n",
    "\n",
    "  const \x7b mutateAsync, isPending \x7d = useMutation(\x7b\n",
    "    mutationFn: (payload: Create", model.name, "Form) =>\n",
    "      sdk.client.fetch(\"", m.basePath model, "\", \x7b method: \"POST\", body: payload \x7d),\n",
    "    onSuccess: () => \x7b\n",
    "      queryClient.invalidateQueries(\x7b queryKey: [\"", key,
    "\"] \x7d)\n",
    "      onSuccess?.()\n",
    "    \x7d,\n",
    "  \x7d)\n",
    "\n",
    "  return (\n",
    "    <FocusModal.Body className=\"flex flex-col gap-y-4 p-6\">\n",
    "      <Heading>Create ", title, "</Heading>\n",
    "      <form onSubmit=\x7bform.handleSubmit((values) => mutateAsync(values))\x7d ",
    "className=\"flex flex-col gap-y-4\">\n",
    String.join inputs,
    "        <Button type=\"submit\" isLoading=\x7bisPending\x7d>\n",
    "          Save\n",
    "        </Button>\n",
    "      </form>\n",
    "    </FocusModal.Body>\n",
    "  )\n",
    "\x7d\n"]

/-- The form that changes an item, given the module from which the client comes. -/
def editFormText (helpers : Helpers) (sdkImport : String) (m : Module) (model : Model) :
    Except Unknown String := do
  let fields := formFields model
  let key ← helpers.use .snake 27 model.plural
  let title ← helpers.use .title 34 model.singular
  let inputs ← fields.mapM (inputText helpers 38)
  return String.join [
    "import \x7b Button, Drawer, Heading, Input, Label \x7d from \"@medusajs/ui\"\n",
    "import \x7b useMutation, useQueryClient \x7d from \"@tanstack/react-query\"\n",
    "import \x7b useForm \x7d from \"react-hook-form\"\n",
    "import \x7b sdk \x7d from \"", sdkImport, "\"\n",
    "\n",
    "type Edit", model.name, "Form = \x7b\n",
    String.join (fields.map fun f => String.join ["  ", f.name, "?: ", inputType f.type, "\n"]),
    "\x7d\n",
    "\n",
    "type Props = \x7b\n",
    "  id: string\n",
    "  defaultValues: Edit", model.name, "Form\n",
    "  onSuccess?: () => void\n",
    "\x7d\n",
    "\n",
    "export const Edit", model.name,
    "Form = (\x7b id, defaultValues, onSuccess \x7d: Props) => \x7b\n",
    "  const queryClient = useQueryClient()\n",
    "  const form = useForm<Edit", model.name, "Form>(\x7b defaultValues \x7d)\n",
    "\n",
    "  const \x7b mutateAsync, isPending \x7d = useMutation(\x7b\n",
    "    mutationFn: (payload: Edit", model.name, "Form) =>\n",
    "      sdk.client.fetch(`", m.basePath model,
    "/$\x7bid\x7d`, \x7b method: \"POST\", body: payload \x7d),\n",
    "    onSuccess: () => \x7b\n",
    "      queryClient.invalidateQueries(\x7b queryKey: [\"", key,
    "\"] \x7d)\n",
    "      onSuccess?.()\n",
    "    \x7d,\n",
    "  \x7d)\n",
    "\n",
    "  return (\n",
    "    <Drawer.Body className=\"flex flex-col gap-y-4 p-6\">\n",
    "      <Heading>Edit ", title, "</Heading>\n",
    "      <form onSubmit=\x7bform.handleSubmit((values) => mutateAsync(values))\x7d ",
    "className=\"flex flex-col gap-y-4\">\n",
    String.join inputs,
    "        <Button type=\"submit\" isLoading=\x7bisPending\x7d>\n",
    "          Save\n",
    "        </Button>\n",
    "      </form>\n",
    "    </Drawer.Body>\n",
    "  )\n",
    "\x7d\n"]

/-- The client of the pages. -/
def sdkText : String :=
  String.join [
    "import Medusa from \"@medusajs/js-sdk\"\n",
    "\n",
    "export const sdk = new Medusa(\x7b\n",
    "  baseUrl: import.meta.env.VITE_BACKEND_URL || \"/\",\n",
    "  debug: import.meta.env.DEV,\n",
    "  auth: \x7b\n",
    "    type: \"session\",\n",
    "  \x7d,\n",
    "\x7d)\n"]

end Template

end ModuleScaffold
