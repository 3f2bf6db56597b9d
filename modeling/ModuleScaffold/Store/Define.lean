import ModuleScaffold.Source.Accept
import ModuleScaffold.Store

/-!
# Defining schema constants

A schema constant is defined by a name and the text of its initializer, which must be exactly one
expression. Semicolons at the end of the text are left out.
-/

namespace ModuleScaffold

namespace Store

/-- The text of an initializer without blanks at its ends and semicolons behind it. -/
def initializerText (expression : String) : String :=
  let cs := (Text.trim expression).toList
  Text.trimEnd (String.ofList (Text.dropEndWhile (· == ';') cs))

/-- The store with a schema constant, or the reason why the name or the initializer is refused. -/
def addDefinition (store : Store) (name expression : String) (exported : Bool) :
    Except Source.Rejection Store :=
  if Text.isIdentifier name then
    let text := initializerText expression
    match Source.checkExpression text with
    | .ok () => .ok (store.insertDefinition ⟨name, text, exported⟩)
    | .error r => .error r
  else .error (.notBinding name)

end Store

end ModuleScaffold
