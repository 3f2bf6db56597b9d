import ModuleScaffold.Number.Literal
import ModuleScaffold.Route
import ModuleScaffold.Source.Tree

/-!
# Values in source text

The expressions that stand for values, and the objects that stand for routes. An expression of
another form, or one that could not be written again as it was, is unreadable; the first reason in
reading order is given.
-/

namespace ModuleScaffold

namespace Source

/-! ### Reasons -/

/-- Why an expression is no value, or an object no route. -/
inductive Unreadable
  /-- A part does not follow the grammar. -/
  | damaged (kind : Kind)
  /-- A member of something other than a name. -/
  | notPath (path : String)
  /-- A template into which values are put. -/
  | filledTemplate
  /-- A number that does not fit. -/
  | badNumber (text : String)
  /-- A key that is computed. -/
  | computedKey
  /-- A member of an object that is no pair. -/
  | notPair (kind : Kind)
  /-- A call with type arguments. -/
  | typeArguments
  /-- A call of something other than a path of names. -/
  | notCallee (kind : Kind) (path : String)
  /-- A template that is handed to a function. -/
  | taggedTemplate
  /-- An operator before something other than a number, or another operator. -/
  | operator (text : String)
  /-- A function. -/
  | function
  /-- An expression of another form. -/
  | unsupported (kind : Kind)
  /-- A member of a route that is no pair. -/
  | routeMember (kind : Kind)
  /-- A matcher that is no text. -/
  | matcherKind (kind : String)
  /-- A method that does not exist. -/
  | unknownMethod (name : String)
  /-- A method in a list that is no text. -/
  | methodItem (kind : String)
  /-- A method that is neither a text nor a list. -/
  | methodKind (kind : String)
  /-- Middlewares that are no list. -/
  | middlewaresKind (kind : Kind)
  /-- A middleware that is no call; its place counts from one. -/
  | notCall (kind : String) (place : Nat)
  /-- A route without a matcher. -/
  | noMatcher
  /-- A route without a method. -/
  | noMethod
  deriving DecidableEq, Repr

/-- What the reason is about. -/
def Unreadable.kind : Unreadable → String
  | damaged k | notPair k | notCallee k _ | unsupported k | routeMember k
  | middlewaresKind k => k.name
  | notPath _ => "member_expression"
  | filledTemplate | taggedTemplate => "template_string"
  | badNumber _ => "number"
  | computedKey => "computed_property_name"
  | typeArguments => "call_expression"
  | operator _ => "unary_expression"
  | function => "function"
  | matcherKind k | methodItem k | methodKind k | notCall k _ => k
  | unknownMethod _ => "method"
  | noMatcher | noMethod => "route"

/-- The reason in words. -/
def Unreadable.detail : Unreadable → String
  | damaged _ => "syntax error"
  | notPath path => "'" ++ path ++ "' is not a plain member path"
  | filledTemplate => "template substitutions cannot be regenerated"
  | badNumber text => "cannot read number '" ++ text ++ "'"
  | computedKey => "computed keys cannot be regenerated"
  | notPair _ => "unsupported object member"
  | typeArguments => "type arguments cannot be regenerated"
  | notCallee _ path => "'" ++ path ++ "' is not a plain callee"
  | taggedTemplate => "tagged templates cannot be regenerated"
  | operator text => "operator '" ++ text ++ "' cannot be regenerated"
  | function => "inline functions cannot be regenerated"
  | unsupported _ => "unsupported expression"
  | routeMember _ => "route entries may only contain key/value pairs"
  | matcherKind _ => "matcher must be a string literal"
  | unknownMethod name => "unknown HTTP method '" ++ name ++ "'"
  | methodItem _ => "method must be a string literal"
  | methodKind _ => "method must be a string or an array"
  | middlewaresKind _ => "middlewares must be an array literal"
  | notCall _ place => "middleware #" ++ Text.decimal place ++ " is not a call expression"
  | noMatcher => "missing matcher"
  | noMethod => "missing method"

/-! ### Values -/

/-- The text meant by a quoted text. -/
def quotedText (f : Fragment) : String :=
  String.ofList (Text.unescape (Text.unquoted f.chars))

/-- The text of a key. -/
def Key.text (key : Key) : String :=
  if key.kind = .string then quotedText key.fragment else key.fragment.text

/-- The value of an expression that is given by its kind and its fragment. -/
def leafValue (kind : Kind) (f : Fragment) : Except Unreadable Value :=
  match kind with
  | .identifier | .undefined => .ok (.identifier f.text)
  | .member =>
    let path := Text.squeeze f.text
    if Text.isIdentifierPath path then .ok (.identifier path) else .error (.notPath path)
  | .string => .ok (.string (quotedText f))
  | .number =>
    match Number.Double.ofLiteral f.chars with
    | some n => .ok (.number n)
    | none => .error (.badNumber f.text)
  | .trueLiteral => .ok (.boolean true)
  | .falseLiteral => .ok (.boolean false)
  | .null => .ok .null
  | .arrow | .function => .error .function
  | k => .error (.unsupported k)

/-- The value of a sign before a value. -/
def signed (mark : Chars) (v : Value) : Except Unreadable Value :=
  match mark, v with
  | ['-'], .number n => .ok (.number n.neg)
  | ['+'], .number n => .ok (.number n)
  | _, _ => .error (.operator (String.ofList mark))

mutual

/-- The value of an expression. -/
def Expr.value : Expr → Except Unreadable Value
  | .leaf kind f => leafValue kind f
  | .template filled f => if filled then .error .filledTemplate else .ok (.string (quotedText f))
  | .regex pattern flags _ =>
    .ok (.ofPattern (String.ofList pattern) (String.ofList flags))
  | .array items _ =>
    match Expr.values items with
    | .ok vs => .ok (.array vs)
    | .error e => .error e
  | .object members _ =>
    match Member.values members with
    | .ok ms => .ok (.object ms)
    | .error e => .error e
  | .call kind callee typed args _ =>
    let path := Text.squeeze callee.text
    if typed then .error .typeArguments
    else if ! Text.isIdentifierPath path then .error (.notCallee kind path)
    else match Expr.values args with
      | .ok vs => .ok (.call path vs)
      | .error e => .error e
  | .tagged kind callee _ =>
    let path := Text.squeeze callee.text
    if Text.isIdentifierPath path then .error .taggedTemplate else .error (.notCallee kind path)
  | .unary mark operand _ =>
    match Expr.value operand with
    | .ok v => signed mark v
    | .error e => .error e
  | .parenthesized inner _ => Expr.value inner
  | .damaged kind _ => .error (.damaged kind)

/-- The values of several expressions. -/
def Expr.values : List Expr → Except Unreadable (List Value)
  | [] => .ok []
  | e :: es =>
    match Expr.value e with
    | .error u => .error u
    | .ok v =>
      match Expr.values es with
      | .error u => .error u
      | .ok vs => .ok (v :: vs)

/-- The keys and values of the members of an object. -/
def Member.values : List Member → Except Unreadable (List (String × Value))
  | [] => .ok []
  | m :: ms =>
    match Member.entry m with
    | .error u => .error u
    | .ok entry =>
      match Member.values ms with
      | .error u => .error u
      | .ok entries => .ok (entry :: entries)

/-- The key and the value of a member of an object. -/
def Member.entry : Member → Except Unreadable (String × Value)
  | .pair key value _ =>
    if key.kind = .computedKey then .error .computedKey
    else match Expr.value value with
      | .ok v => .ok (key.text, v)
      | .error u => .error u
  | .shorthand f => .ok (f.text, .identifier f.text)
  | .other kind _ => .error (.notPair kind)
  | .damaged key _ => .error (.damaged key.kind)

end

/-! ### Routes -/

/-- What has been read of a route. -/
structure RouteDraft where
  /-- The matcher. -/
  matcher : Option String := none
  /-- The methods. -/
  methods : List Method := []
  /-- The middlewares. -/
  middlewares : List Call := []
  /-- The further properties. -/
  extra : List (String × Value) := []

/-- The method with the given name. -/
def methodNamed (name : String) : Except Unreadable Method :=
  match Method.ofName? name with
  | some m => .ok m
  | none => .error (.unknownMethod name)

/-- The method given by an item of a list. -/
def methodItem : Value → Except Unreadable Method
  | .string name => methodNamed name
  | v => .error (.methodItem v.kindName)

/-- The methods given by a value. -/
def methodsOf : Value → Except Unreadable (List Method)
  | .string name => (methodNamed name).map fun m => [m]
  | .array items => items.mapM methodItem
  | v => .error (.methodKind v.kindName)

/-- The calls given by the items of a list, the first of them at the given place. -/
def callsFrom (place : Nat) : List Expr → Except Unreadable (List Call)
  | [] => .ok []
  | e :: es => do
    match ← e.value with
    | .call callee args => return ⟨callee, args⟩ :: (← callsFrom (place + 1) es)
    | v => .error (.notCall v.kindName place)

/-- What has been read of a route after one more pair. -/
def RouteDraft.add (draft : RouteDraft) (key : String) (value : Expr) :
    Except Unreadable RouteDraft :=
  match key with
  | "matcher" => do
    match ← value.value with
    | .string text => return { draft with matcher := some text }
    | v => .error (.matcherKind v.kindName)
  | "method" => do
    let methods ← methodsOf (← value.value)
    return { draft with methods }
  | "middlewares" =>
    match value with
    | .array items _ => do
      let calls ← callsFrom 1 items
      return { draft with middlewares := draft.middlewares ++ calls }
    | _ => .error (.middlewaresKind value.kind)
  | _ => do
    let v ← value.value
    return { draft with extra := draft.extra ++ [(key, v)] }

/-- What has been read of a route after one more member. -/
def RouteDraft.addMember (draft : RouteDraft) : Member → Except Unreadable RouteDraft
  | .pair key value _ => draft.add key.text value
  | .shorthand _ => .error (.routeMember .shorthand)
  | .other kind _ => .error (.routeMember kind)
  | .damaged key _ => .error (.damaged key.kind)

/-- The routes that a draft stands for, one for each of its methods. -/
def RouteDraft.routes (draft : RouteDraft) : Except Unreadable (List Route) :=
  match draft.matcher with
  | none => .error .noMatcher
  | some matcher =>
    if draft.methods.isEmpty then .error .noMethod
    else .ok (draft.methods.map fun method => ⟨method, matcher, draft.middlewares, draft.extra⟩)

/-- The routes that the members of an object stand for. -/
def routesOf (members : List Member) : Except Unreadable (List Route) := do
  (← members.foldlM RouteDraft.addMember {}).routes

end Source

end ModuleScaffold
