import ModuleScaffold.Declarations
import ModuleScaffold.Formatter
import ModuleScaffold.Template.Render

/-!
# Failures

Why files cannot be generated. Every failure has a message and a code under which it is reported.
-/

namespace ModuleScaffold

/-- Why files cannot be generated. -/
inductive Failure
  /-- A file cannot be read. -/
  | unreadable (path : Path) (reason : String)
  /-- A file cannot be written. -/
  | unwritable (path : Path) (reason : String)
  /-- A file holds no module. -/
  | noModule (path : Path) (problem : Json.Problem)
  /-- A module is not accepted. -/
  | schema (path : Path) (problem : Schema.Problem)
  /-- A value cannot be written. -/
  | value (problem : Value.Problem)
  /-- A text is refused as an expression or a name. -/
  | source (reason : Source.Rejection)
  /-- The middleware file cannot be written down. -/
  | store (problem : Store.Problem)
  /-- A template cannot be rendered. -/
  | template (failure : RenderFailure)
  /-- A text cannot be formatted. -/
  | format (problem : FormatProblem)
  deriving DecidableEq, Repr

namespace Failure

/-- The failure of declarations. -/
def ofDeclarations : Declarations.Problem → Failure
  | .definition reason => source reason
  | .route problem => value problem

/-- The message about the schema in a file. -/
def schemaMessage (path : Path) (detail : String) : String :=
  "Invalid module schema '" ++ path.text ++ "': " ++ detail

/-- The message about the declarations of a middleware file. -/
def storeMessage : Store.Problem → String
  | .dangling name method matcher =>
    "Route " ++ method.name ++ " " ++ matcher ++ " references schema '" ++ name
      ++ "' which is neither declared nor imported"
  | .cycle labels => "Schema dependency cycle: " ++ " -> ".intercalate labels

/-- The failure in words. -/
def message : Failure → String
  | unreadable path reason => "Failed to read file '" ++ path.text ++ "': " ++ reason
  | unwritable path reason => "Failed to write file '" ++ path.text ++ "': " ++ reason
  | noModule path problem => schemaMessage path problem.message
  | schema _ (.repeatedModel name) => (Schema.Problem.repeatedModel name).message
  | schema _ (.unknownModel model target) => (Schema.Problem.unknownModel model target).message
  | schema path problem => schemaMessage path problem.message
  | value problem => problem.message
  | source reason => Value.cannotEncode reason.kind reason.detail
  | store problem => storeMessage problem
  | template failure =>
    "Failed to render template '" ++ failure.template.name ++ "': " ++ failure.detail
  | format problem => "Failed to format generated code: " ++ problem.message

/-- The code of a failure. -/
def code : Failure → String
  | unreadable .. => "modgen::io::read_error"
  | unwritable .. => "modgen::io::write_error"
  | noModule .. => "modgen::schema::invalid"
  | schema _ (.repeatedModel _) => "modgen::schema::duplicate_model"
  | schema _ (.unknownModel ..) => "modgen::schema::unknown_model"
  | schema .. => "modgen::schema::invalid"
  | value _ | source _ => "modgen::merge::unsupported_value"
  | store (.dangling ..) => "modgen::merge::dangling_schema"
  | store (.cycle _) => "modgen::merge::dependency_cycle"
  | template _ => "modgen::codegen::template_failed"
  | format _ => "modgen::codegen::format_failed"

end Failure

/-- An action that can fail. -/
abbrev Run (m : Type → Type) (α : Type) := ExceptT Failure m α

/-- A result with its failure in the terms of the whole program. -/
def Run.ofExcept {m : Type → Type} [Monad m] {ε α : Type} (failure : ε → Failure)
    (result : Except ε α) : Run m α :=
  .mk (pure (result.mapError failure))

end ModuleScaffold
