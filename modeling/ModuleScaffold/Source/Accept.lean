import ModuleScaffold.Source.Program
import ModuleScaffold.Source.Values
import ModuleScaffold.Text.Blank

/-!
# Single expressions

Two questions about a text that should be one expression. The initializer of a schema constant
must be exactly the value of the one variable that it makes when it is put into a statement
(`isInitializer`). An argument is read as a value in parentheses (`readValue`).
-/

namespace ModuleScaffold

namespace Source

/-- Why a text is not accepted. -/
inductive Rejection
  /-- There is no expression. -/
  | emptyExpression
  /-- The text is not exactly one expression. -/
  | notSingle (text : String)
  /-- The text is no expression. -/
  | notValid (text : String)
  /-- The expression is no value. -/
  | unreadable (reason : Unreadable)
  /-- The value cannot be written. -/
  | unwritable (reason : Value.Problem)
  /-- The name of a schema constant is no identifier. -/
  | notBinding (name : String)
  deriving DecidableEq, Repr

/-- What the rejection is about. -/
def Rejection.kind : Rejection → String
  | emptyExpression | notSingle _ | notValid _ => "expression"
  | unreadable reason => reason.kind
  | unwritable reason => reason.kind
  | notBinding _ => "schema"

/-- The rejection in words. -/
def Rejection.detail : Rejection → String
  | emptyExpression => "empty expression"
  | notSingle text => "'" ++ text ++ "' is not a single expression"
  | notValid text => "'" ++ text ++ "' is not a valid expression"
  | unreadable reason => reason.detail
  | unwritable reason => reason.detail
  | notBinding name => "'" ++ name ++ "' is not a valid binding name"

/-- The items of a source that are no comments. -/
def statements (source : Chars) : List Item :=
  (items source).filter fun
    | .comment _ => false
    | _ => true

/-- The statement into which an initializer is put. -/
def initializerFrame (expression : Chars) : Chars :=
  "const __binding = ".toList ++ expression ++ [';']

/-- Whether a text is exactly one expression that can be the initializer of a constant. -/
def isInitializer (expression : Chars) : Bool :=
  let source := initializerFrame expression
  match statements source with
  | [.declaring _ true [⟨_, some value, _⟩] f] =>
    f == ⟨source, []⟩ && value.fragment.text == Text.trim (String.ofList expression)
  | _ => false

/-- Refuses a text that is not exactly one expression. -/
def checkExpression (text : String) : Except Rejection Unit :=
  if (Text.trim text).isEmpty then .error .emptyExpression
  else if isInitializer text.toList then .ok ()
  else .error (.notSingle text)

/-- The first expression among items. -/
def firstExpression : List Item → Option Expr
  | [] => none
  | .expression value _ :: _ => some value
  | _ :: rest => firstExpression rest

/-- The value that a text stands for. -/
def readValue (text : String) : Except Rejection Value :=
  let found := items ('(' :: (text.toList ++ [')', ';']))
  if found.all Item.isSound then
    match firstExpression found with
    | none => .error .emptyExpression
    | some e =>
      match e.value with
      | .error u => .error (.unreadable u)
      | .ok v =>
        match v.problem? with
        | some p => .error (.unwritable p)
        | none => .ok v
  else .error (.notValid text)

end Source

end ModuleScaffold
