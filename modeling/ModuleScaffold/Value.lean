import ModuleScaffold.Number.Double
import ModuleScaffold.Text.Identifier
import ModuleScaffold.Value.Regex

/-!
# Argument values

What a middleware is called with: references, literals, arrays, objects and further calls. An
object keeps its members in the order of the source, repeated keys included.
-/

namespace ModuleScaffold

/-- An argument of a middleware call. -/
inductive Value
  /-- A reference to a binding or, through points, to a member of it. -/
  | identifier (path : String)
  /-- A text. -/
  | string (text : String)
  /-- A number. -/
  | number (value : Number.Double)
  /-- A truth value. -/
  | boolean (value : Bool)
  /-- The null value. -/
  | null
  /-- A regular expression with its flags; the pattern is written as it is between slashes. -/
  | regex (pattern flags : String)
  /-- An array. -/
  | array (items : List Value)
  /-- An object. -/
  | object (members : List (String × Value))
  /-- A call. -/
  | call (callee : String) (args : List Value)
  deriving Repr

/-- A call of a named middleware. -/
structure Call where
  /-- The name, or the path, of what is called. -/
  callee : String
  /-- The arguments. -/
  args : List Value
  deriving Repr

/-- A call as a value. -/
def Call.toValue (call : Call) : Value :=
  .call call.callee call.args

namespace Value

/-- A regular expression for a pattern whose slashes may not be escaped yet. -/
def ofPattern (pattern flags : String) : Value :=
  .regex (Regex.escapeSlashes pattern) flags

/-- An array of texts. -/
def strings (texts : List String) : Value :=
  .array (texts.map .string)

/-- The name of the kind of a value. -/
def kindName : Value → String
  | identifier _ => "identifier"
  | string _ => "string"
  | number _ => "number"
  | boolean _ => "boolean"
  | null => "null"
  | regex .. => "regex"
  | array _ => "array"
  | object _ => "object"
  | call .. => "invocation"

/-! ### References -/

mutual

/-- The references in a value, in reading order. The callee of a call is not among them. -/
def references : Value → List String
  | identifier path => [path]
  | array items => referencesAll items
  | object members => referencesMembers members
  | call _ args => referencesAll args
  | _ => []

/-- The references in several values. -/
def referencesAll : List Value → List String
  | [] => []
  | v :: vs => references v ++ referencesAll vs

/-- The references in the members of an object. -/
def referencesMembers : List (String × Value) → List String
  | [] => []
  | (_, v) :: ms => references v ++ referencesMembers ms

end

/-! ### Equality -/

mutual

/-- Equality of values; numbers are equal as numbers. -/
def same : Value → Value → Bool
  | identifier s, identifier t => s == t
  | string s, string t => s == t
  | number a, number b => a.same b
  | boolean a, boolean b => a == b
  | null, null => true
  | regex p f, regex p' f' => p == p' && f == f'
  | array as, array bs => sameAll as bs
  | object as, object bs => sameMembers as bs
  | call f as, call g bs => f == g && sameAll as bs
  | _, _ => false

/-- Equality of lists of values. -/
def sameAll : List Value → List Value → Bool
  | [], [] => true
  | a :: as, b :: bs => same a b && sameAll as bs
  | _, _ => false

/-- Equality of lists of members. -/
def sameMembers : List (String × Value) → List (String × Value) → Bool
  | [], [] => true
  | (k, a) :: as, (l, b) :: bs => k == l && same a b && sameMembers as bs
  | _, _ => false

end

end Value

namespace Call

/-- The name of the wrapper that skips a middleware on some paths. -/
def unlessPathName : String := "unlessPath"

/-- The call that skips `inner` on paths that match the pattern. -/
def unlessPath (pattern flags : String) (inner : Call) : Call :=
  ⟨unlessPathName, [.ofPattern pattern flags, inner.toValue]⟩

/-- Whether a call skips another one on some paths. -/
def isUnlessPath (call : Call) : Bool :=
  call.callee == unlessPathName &&
    match call.args with
    | [.regex .., .call ..] => true
    | _ => false

/-- The references in the arguments of a call. -/
def references (call : Call) : List String :=
  Value.referencesAll call.args

/-- Equality of calls. -/
def same (a b : Call) : Bool :=
  a.toValue.same b.toValue

end Call

end ModuleScaffold
