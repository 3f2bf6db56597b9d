import ModuleScaffold.Number.Shortest
import ModuleScaffold.Value

/-!
# Values that can be written

Not every value can be written as source text: a reference must be a path of identifiers, a
number must be finite, a regular expression must fit between its slashes, and a key must not be
empty. `Value.problem?` finds the first reason, in reading order, why a value cannot be written.
-/

namespace ModuleScaffold

namespace Value

/-- Why a value cannot be written. -/
inductive Problem
  /-- The name of a call is no path of identifiers. -/
  | notCallable (name : String)
  /-- A reference is no path of identifiers. -/
  | notReference (path : String)
  /-- A number is not finite. -/
  | notFinite (value : Number.Double)
  /-- A regular expression does not fit between slashes. -/
  | regex (reason : Regex.Problem)
  /-- A member of an object has an empty key. -/
  | emptyKey
  /-- A further property of a route has an empty key. -/
  | emptyRouteKey
  deriving DecidableEq, Repr

/-- What the problem is about. -/
def Problem.kind : Problem → String
  | notCallable _ => "middleware"
  | notReference _ => "identifier"
  | notFinite _ => "number"
  | regex _ => "regex"
  | emptyKey | emptyRouteKey => "object"

/-- The problem in words. -/
def Problem.detail : Problem → String
  | notCallable name => "'" ++ name ++ "' is not a callable name"
  | notReference path => "'" ++ path ++ "' is not a valid identifier reference"
  | notFinite value => value.toText ++ " has no literal form"
  | regex reason => reason.detail
  | emptyKey => "empty property key"
  | emptyRouteKey => "empty route property key"

/-- The message that a value of some kind cannot be written. -/
def cannotEncode (kind detail : String) : String :=
  "Cannot encode " ++ kind ++ " value: " ++ detail

/-- The problem as a message. -/
def Problem.message (p : Problem) : String :=
  cannotEncode p.kind p.detail

mutual

/-- The first reason why a value cannot be written. -/
def problem? : Value → Option Problem
  | identifier path => if Text.isIdentifierPath path then none else some (.notReference path)
  | number value => if value.isFinite then none else some (.notFinite value)
  | regex pattern flags => (Regex.problem? pattern flags).map .regex
  | array items => problemAll? items
  | object members => problemMembers? members
  | call callee args =>
    if Text.isIdentifierPath callee then problemAll? args else some (.notCallable callee)
  | string _ | boolean _ | null => none

/-- The first reason why one of several values cannot be written. -/
def problemAll? : List Value → Option Problem
  | [] => none
  | v :: vs =>
    match problem? v with
    | some p => some p
    | none => problemAll? vs

/-- The first reason why one of several members cannot be written. -/
def problemMembers? : List (String × Value) → Option Problem
  | [] => none
  | (k, v) :: ms =>
    if k.isEmpty then some .emptyKey
    else match problem? v with
      | some p => some p
      | none => problemMembers? ms

end

end Value

/-- The first reason why a call cannot be written. -/
def Call.problem? (call : Call) : Option Value.Problem :=
  call.toValue.problem?

end ModuleScaffold
