import ModuleScaffold.Path
import ModuleScaffold.Source.Values
import ModuleScaffold.Value.Problem

/-!
# Warnings

Reading a middleware file never fails. What has the look of an import, a schema constant or a
route and cannot be read as one is left out with a warning that says where it stood and why.
-/

namespace ModuleScaffold

namespace Source

/-- Why a fragment was left out, or kept with a remark. -/
inductive Complaint
  /-- No statement can be made out. -/
  | unreadableText
  /-- A statement does not follow the grammar. -/
  | damagedStatement
  /-- An import does not follow the grammar. -/
  | damagedImport
  /-- An import has no source. -/
  | noSource
  /-- A schema constant is declared together with others. -/
  | severalBindings
  /-- A schema constant does not follow the grammar. -/
  | damagedSchema
  /-- A schema constant has no initializer. -/
  | noInitializer (name : String)
  /-- The routes are registered more than once. -/
  | secondRegistration
  /-- The routes are registered with something else than an object. -/
  | noConfiguration
  /-- A member of the registration is no pair. -/
  | unsupportedProperty
  /-- The routes are no list. -/
  | routesNotList
  /-- A member of the registration does not follow the grammar. -/
  | damagedProperty (key : String)
  /-- A route is no object. -/
  | notObject (kind : Kind)
  /-- A route does not follow the grammar. -/
  | damagedRoute
  /-- A route cannot be read. -/
  | unreadableRoute (reason : Unreadable)
  /-- A route cannot be written again. -/
  | unwritableRoute (reason : Value.Problem)
  deriving DecidableEq, Repr

/-- What the fragment is. -/
def Complaint.fragment : Complaint → String
  | unreadableText | damagedStatement => "statement"
  | damagedImport | noSource => "import"
  | severalBindings | damagedSchema | noInitializer _ => "schema"
  | secondRegistration | noConfiguration | unsupportedProperty | routesNotList
  | damagedProperty _ => "middlewares"
  | notObject _ | damagedRoute | unreadableRoute _ | unwritableRoute _ => "route"

/-- The complaint in words. -/
def Complaint.message : Complaint → String
  | unreadableText => "unparseable source"
  | damagedStatement => "statement contains syntax errors"
  | damagedImport => "import statement contains syntax errors"
  | noSource => "import statement without a source module"
  | severalBindings => "several bindings in one schema declaration"
  | damagedSchema => "schema definition contains syntax errors"
  | noInitializer name => "schema '" ++ name ++ "' has no initializer"
  | secondRegistration => "more than one defineMiddlewares call"
  | noConfiguration => "defineMiddlewares expects an object literal"
  | unsupportedProperty => "unsupported property in middleware config"
  | routesNotList => "routes must be an array literal"
  | damagedProperty key => "property '" ++ key ++ "' contains syntax errors"
  | notObject kind => "expected an object literal, found " ++ kind.name
  | damagedRoute => "route entry contains syntax errors"
  | unreadableRoute reason => reason.detail ++ " (" ++ reason.kind ++ ")"
  | unwritableRoute reason => reason.message

/-- A complaint and where it applies. -/
structure Warning where
  /-- The complaint. -/
  complaint : Complaint
  /-- Where the fragment stands. -/
  span : Span
  deriving DecidableEq, Repr

/-- A warning about a file, as one line of text. -/
def Warning.text (path : Path) (w : Warning) : String :=
  path.text ++ ":" ++ Text.decimal (w.span.start.line + 1) ++ ":"
    ++ Text.decimal (w.span.start.column + 1) ++ ": skipped " ++ w.complaint.fragment ++ ": "
    ++ w.complaint.message

end Source

end ModuleScaffold
