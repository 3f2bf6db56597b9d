import ModuleScaffold.Source.Program
import ModuleScaffold.Source.Warning
import ModuleScaffold.Store.Render

/-!
# Reading a middleware file

The items of a middleware file are read one after the other into a store: imports, constants
whose names end like those of schemas, and the routes of the registration. Every other statement
is kept as it is written, with the comments directly above it.

Main definition: `Source.readMiddlewares`, the store and the warnings of a source text.
-/

namespace ModuleScaffold

namespace Source

/-- What has been read of a file. -/
structure Reading where
  /-- The declarations. -/
  store : Store := {}
  /-- The complaints and the fragments they apply to, in the order in which they came up. -/
  complaints : List (Complaint × Fragment) := []
  /-- Whether the routes have been registered. -/
  registered : Bool := false
  /-- The comments since the last statement. -/
  comments : List Chars := []

namespace Reading

/-- One more complaint. -/
def complain (reading : Reading) (complaint : Complaint) (f : Fragment) : Reading :=
  { reading with complaints := reading.complaints ++ [(complaint, f)] }

/-- Keeps a statement with the comments above it. -/
def keep (reading : Reading) (sound : Bool) (f : Fragment) : Reading :=
  if sound then
    let lines := reading.comments ++ [f.chars]
    { reading with
      store := reading.store.addStatement (String.ofList (Text.joinWith ['\n'] lines)) }
  else reading.complain .damagedStatement f

/-! ### Imports -/

/-- The specifiers of a part of an import. -/
def specifiers (typesOnly : Bool) : ImportPart → List String
  | .byDefault name => [mark ++ "default as " ++ name.text]
  | .whole f => [Text.collapse f.text]
  | .named fs => fs.map fun f => mark ++ Text.collapse f.text
where
  /-- The word in front of the specifiers of an import of types. -/
  mark : String := if typesOnly then "type " else ""

/-- An import statement. -/
def addImport (reading : Reading) (form : ImportForm) (f : Fragment) : Reading :=
  match form with
  | .damaged => reading.complain .damagedImport f
  | .required => reading.complain .noSource f
  | .source typesOnly parts source =>
    { reading with
      store := reading.store.addImports (String.ofList (Text.unquoted source.chars))
        (parts.flatMap (specifiers typesOnly)) }

/-! ### Variables -/

/-- Whether a variable has the name of a schema. -/
def isSchema (d : Declarator) : Bool :=
  match d.name with
  | some name => Store.isSchemaName name.text
  | none => false

/-- A schema constant. -/
def addSchema (reading : Reading) (exported : Bool) (d : Declarator) : Reading :=
  let name := (d.name.map Fragment.text).getD ""
  match d.value with
  | none => reading.complain (.noInitializer name) d.fragment
  | some value =>
    if value.isDamaged then reading.complain .damagedSchema d.fragment
    else { reading with
      store := reading.store.insertDefinition ⟨name, value.fragment.text, exported⟩ }

/-- A statement that declares variables. -/
def addVariables (reading : Reading) (exported sound : Bool) (ds : List Declarator)
    (f : Fragment) : Reading :=
  if ! ds.any isSchema then reading.keep sound f
  else match ds with
    | [d] => reading.addSchema exported d
    | _ => (reading.complain .severalBindings f).keep sound f

/-! ### The registration -/

/-- The routes that an item of the list stands for. -/
def addRoutes (reading : Reading) (f : Fragment) (routes : List Route) : Reading :=
  routes.foldl (fun reading route =>
    match reading.store.addRoute route with
    | .ok store => { reading with store }
    | .error p => reading.complain (.unwritableRoute p) f) reading

/-- An item of the list of routes. -/
def addEntry (reading : Reading) (e : Expr) : Reading :=
  if e.kind ≠ .object then reading.complain (.notObject e.kind) e.fragment
  else if e.isDamaged then reading.complain .damagedRoute e.fragment
  else match e with
    | .object members f =>
      match routesOf members with
      | .ok routes => reading.addRoutes f routes
      | .error u => reading.complain (.unreadableRoute u) f
    | _ => reading.complain (.notObject e.kind) e.fragment

/-- A member of the registration. -/
def addProperty (reading : Reading) (m : Member) : Reading :=
  match m with
  | .pair key value f =>
    if key.text = "routes" then
      match value with
      | .array items _ => items.foldl addEntry reading
      | _ => reading.complain .routesNotList value.fragment
    else if value.isDamaged then reading.complain (.damagedProperty key.text) f
    else { reading with store := reading.store.addSetting key.text value.fragment.text }
  | .damaged key f => reading.complain (.damagedProperty key.text) f
  | .shorthand f | .other _ f => reading.complain .unsupportedProperty f

/-- Whether an expression registers the routes. -/
def isRegistration : Expr → Bool
  | .call _ callee _ _ _ | .tagged _ callee _ => callee.chars == Store.registrationName.toList
  | _ => false

/-- The first argument of a call. -/
def firstArgument : Expr → Option Expr
  | .call _ _ _ args _ => args.head?
  | _ => none

/-- The registration of the routes. -/
def addRegistration (reading : Reading) (call : Expr) : Reading :=
  if reading.registered then reading.complain .secondRegistration call.fragment
  else
    let reading := { reading with registered := true }
    match firstArgument call with
    | some (.object members _) => members.foldl addProperty reading
    | _ => reading.complain .noConfiguration call.fragment

/-! ### Items -/

/-- A comment is remembered, unless it is one of the lines at the start of written files. -/
def addComment (reading : Reading) (f : Fragment) : Reading :=
  if Store.headerLines.contains f.text then reading
  else { reading with comments := reading.comments ++ [f.chars] }

/-- A statement. -/
def addStatement (reading : Reading) (found : Item) : Reading :=
  match found with
  | .comment _ | .empty _ => reading
  | .importing form f => reading.addImport form f
  | .declaring exported sound ds f => reading.addVariables exported sound ds f
  | .exported value f =>
    if isRegistration value then reading.addRegistration value
    else reading.keep (! value.isDamaged) f
  | .expression _ f | .other f => reading.keep true f
  | .damaged f => reading.keep false f
  | .unreadable f => reading.complain .unreadableText f

/-- An item. The comments above a statement are forgotten behind it. -/
def add (reading : Reading) (found : Item) : Reading :=
  match found with
  | .comment f => reading.addComment f
  | _ => { reading.addStatement found with comments := [] }

end Reading

/-- What a source text declares. -/
def read (source : Chars) : Reading :=
  (items source).foldl Reading.add {}

/-- The store that a source text declares, and the warnings about what was left out. -/
def readMiddlewares (source : String) : Store × List Warning :=
  let cs := source.toList
  let reading := read cs
  (reading.store, reading.complaints.map fun (complaint, f) => ⟨complaint, f.span cs⟩)

end Source

end ModuleScaffold
