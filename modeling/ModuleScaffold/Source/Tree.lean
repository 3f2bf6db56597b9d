import ModuleScaffold.Source.Fragment

/-!
# Syntax trees

The forms of expressions that can become values are held with their parts; of all other
expressions only the kind and the fragment matter. The same goes for the members of objects and
for statements: imports, variables and the exported value are held with their parts, the rest are
fragments.

A part of a source that does not follow the grammar may be *damaged*: its extent is known from its
brackets, and nothing else.
-/

namespace ModuleScaffold

namespace Source

/-- The kinds of expressions and of members of objects. -/
inductive Kind
  /-- A name. -/
  | identifier
  /-- The undefined value. -/
  | undefined
  /-- The receiver. -/
  | this
  /-- The superclass. -/
  | super
  /-- The word for a dynamic import, as a callee. -/
  | importWord
  /-- A member after a point. -/
  | member
  /-- A member in brackets. -/
  | subscript
  /-- A text in quotes. -/
  | string
  /-- A template. -/
  | template
  /-- A number. -/
  | number
  /-- The truth value of what holds. -/
  | trueLiteral
  /-- The truth value of what does not hold. -/
  | falseLiteral
  /-- The null value. -/
  | null
  /-- A regular expression. -/
  | regex
  /-- An array. -/
  | array
  /-- An object. -/
  | object
  /-- A member with a key and a value. -/
  | pair
  /-- A member given by its name alone. -/
  | shorthand
  /-- A method. -/
  | method
  /-- Members of another object or items of another array. -/
  | spread
  /-- A key that is computed. -/
  | computedKey
  /-- A key that is private. -/
  | privateKey
  /-- A call. -/
  | call
  /-- The creation of an object. -/
  | new
  /-- Waiting for a value. -/
  | await
  /-- Handing out a value. -/
  | yield
  /-- An operator before its operand. -/
  | unary
  /-- Counting up or down. -/
  | update
  /-- An operator between operands. -/
  | binary
  /-- A choice between two expressions. -/
  | ternary
  /-- An assignment. -/
  | assignment
  /-- An assignment with an operator. -/
  | augmentedAssignment
  /-- Expressions separated by commas. -/
  | sequence
  /-- A type assertion behind its operand. -/
  | asType
  /-- A type check behind its operand. -/
  | satisfiesType
  /-- A type assertion before its operand. -/
  | typeAssertion
  /-- The assertion that a value is there. -/
  | nonNull
  /-- Type arguments without a call. -/
  | instantiation
  /-- An expression in parentheses. -/
  | parenthesized
  /-- An arrow function. -/
  | arrow
  /-- A function. -/
  | function
  /-- A generator. -/
  | generator
  /-- A class. -/
  | classBody
  /-- A property of a keyword. -/
  | metaProperty
  /-- Text that does not follow the grammar. -/
  | error
  deriving DecidableEq, Repr

/-- The name of a kind, as messages write it. -/
def Kind.name : Kind → String
  | identifier => "identifier"
  | undefined => "undefined"
  | this => "this"
  | super => "super"
  | importWord => "import"
  | member => "member_expression"
  | subscript => "subscript_expression"
  | string => "string"
  | template => "template_string"
  | number => "number"
  | trueLiteral => "true"
  | falseLiteral => "false"
  | null => "null"
  | regex => "regex"
  | array => "array"
  | object => "object"
  | pair => "pair"
  | shorthand => "shorthand_property_identifier"
  | method => "method_definition"
  | spread => "spread_element"
  | computedKey => "computed_property_name"
  | privateKey => "private_property_identifier"
  | call => "call_expression"
  | new => "new_expression"
  | await => "await_expression"
  | yield => "yield_expression"
  | unary => "unary_expression"
  | update => "update_expression"
  | binary => "binary_expression"
  | ternary => "ternary_expression"
  | assignment => "assignment_expression"
  | augmentedAssignment => "augmented_assignment_expression"
  | sequence => "sequence_expression"
  | asType => "as_expression"
  | satisfiesType => "satisfies_expression"
  | typeAssertion => "type_assertion"
  | nonNull => "non_null_expression"
  | instantiation => "instantiation_expression"
  | parenthesized => "parenthesized_expression"
  | arrow => "arrow_function"
  | function => "function_expression"
  | generator => "generator_function"
  | classBody => "class"
  | metaProperty => "meta_property"
  | error => "ERROR"

/-- The key of a member. -/
structure Key where
  /-- How the key is written. -/
  kind : Kind
  /-- Its fragment. -/
  fragment : Fragment
  deriving DecidableEq, Repr

mutual

/-- An expression. -/
inductive Expr
  /-- An expression of which only the kind and the fragment matter. -/
  | leaf (kind : Kind) (fragment : Fragment)
  /-- A template, and whether expressions are put into it. -/
  | template (filled : Bool) (fragment : Fragment)
  /-- A regular expression. -/
  | regex (pattern flags : Chars) (fragment : Fragment)
  /-- An array without its holes. -/
  | array (items : List Expr) (fragment : Fragment)
  /-- An object. -/
  | object (members : List Member) (fragment : Fragment)
  /-- A call; of the callee only the kind and the fragment matter. -/
  | call (calleeKind : Kind) (callee : Fragment) (typed : Bool) (args : List Expr) (fragment : Fragment)
  /-- A template that is handed to a function. -/
  | tagged (calleeKind : Kind) (callee : Fragment) (fragment : Fragment)
  /-- An operator before its operand. -/
  | unary (operator : Chars) (operand : Expr) (fragment : Fragment)
  /-- An expression in parentheses. -/
  | parenthesized (inner : Expr) (fragment : Fragment)
  /-- An expression that does not follow the grammar. -/
  | damaged (kind : Kind) (fragment : Fragment)

/-- A member of an object. -/
inductive Member
  /-- A key and a value. -/
  | pair (key : Key) (value : Expr) (fragment : Fragment)
  /-- A name that is both. -/
  | shorthand (fragment : Fragment)
  /-- A member of another kind. -/
  | other (kind : Kind) (fragment : Fragment)
  /-- A pair without a value that follows the grammar. -/
  | damaged (key : Key) (fragment : Fragment)

end

/-- The fragment of an expression. -/
def Expr.fragment : Expr → Fragment
  | leaf _ f | template _ f | regex _ _ f | array _ f | object _ f | call _ _ _ _ f
  | tagged _ _ f | unary _ _ f | parenthesized _ f | damaged _ f => f

/-- The kind of an expression. -/
def Expr.kind : Expr → Kind
  | leaf k _ => k
  | template .. => .template
  | regex .. => .regex
  | array .. => .array
  | object .. => .object
  | call .. | tagged .. => .call
  | unary .. => .unary
  | parenthesized .. => .parenthesized
  | damaged k _ => k

/-- The fragment of a member. -/
def Member.fragment : Member → Fragment
  | pair _ _ f | shorthand f | other _ f | damaged _ f => f

mutual

/-- Whether a part of the expression does not follow the grammar. -/
def Expr.isDamaged : Expr → Bool
  | .array items _ => Expr.anyDamaged items
  | .object members _ => Member.anyDamaged members
  | .call _ _ _ args _ => Expr.anyDamaged args
  | .unary _ operand _ => Expr.isDamaged operand
  | .parenthesized inner _ => Expr.isDamaged inner
  | .damaged .. => true
  | .leaf .. | .template .. | .regex .. | .tagged .. => false

/-- Whether a part of one of the expressions does not follow the grammar. -/
def Expr.anyDamaged : List Expr → Bool
  | [] => false
  | e :: es => Expr.isDamaged e || Expr.anyDamaged es

/-- Whether a part of the member does not follow the grammar. -/
def Member.isDamaged : Member → Bool
  | .pair _ value _ => Expr.isDamaged value
  | .damaged .. => true
  | .shorthand _ | .other .. => false

/-- Whether a part of one of the members does not follow the grammar. -/
def Member.anyDamaged : List Member → Bool
  | [] => false
  | m :: ms => Member.isDamaged m || Member.anyDamaged ms

end

/-! ### Statements -/

/-- A part of what an import statement binds. -/
inductive ImportPart
  /-- The default of the source under a name. -/
  | byDefault (name : Fragment)
  /-- The whole source under a name. -/
  | whole (fragment : Fragment)
  /-- Names from a list. -/
  | named (specifiers : List Fragment)
  deriving Repr

/-- The forms of an import statement. -/
inductive ImportForm
  /-- An import from a source. -/
  | source (typesOnly : Bool) (parts : List ImportPart) (source : Fragment)
  /-- An import of what a call gives. -/
  | required
  /-- An import that does not follow the grammar. -/
  | damaged
  deriving Repr

/-- A variable and its initializer. -/
structure Declarator where
  /-- The name, if the variable is not given by a pattern. -/
  name : Option Fragment
  /-- The initializer. -/
  value : Option Expr
  /-- The fragment of both. -/
  fragment : Fragment

/-- A part of a source text at its top level. -/
inductive Item
  /-- A comment. -/
  | comment (fragment : Fragment)
  /-- An import statement. -/
  | importing (form : ImportForm) (fragment : Fragment)
  /-- Variables; `sound` if all of the statement follows the grammar. -/
  | declaring (exported sound : Bool) (declarators : List Declarator) (fragment : Fragment)
  /-- An exported value. -/
  | exported (value : Expr) (fragment : Fragment)
  /-- An expression. -/
  | expression (value : Expr) (fragment : Fragment)
  /-- A statement that is nothing but its end. -/
  | empty (fragment : Fragment)
  /-- Any other statement. -/
  | other (fragment : Fragment)
  /-- A statement that does not follow the grammar. -/
  | damaged (fragment : Fragment)
  /-- Text in which no statement can be made out. -/
  | unreadable (fragment : Fragment)

end Source

end ModuleScaffold
