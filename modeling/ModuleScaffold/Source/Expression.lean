import ModuleScaffold.Source.Types

/-!
# Expressions

The grammar of expressions. The forms that can become values are read into trees; of the others
the kind and the fragment are kept.

A chain of operators is read flat: nothing depends on how its operands are grouped. An expression
that is followed by an arrow, or that starts like the parameters of a function, is read again as an
arrow function.
-/

namespace ModuleScaffold

namespace Source

/-- An expression of which only the kind matters, from its start to what remains. -/
def leafTo (kind : Kind) (start rest : Chars) : Expr × Chars :=
  (.leaf kind ⟨start, rest⟩, rest)

/-! ### Operators -/

/-- The marks of operators, the longer before their beginnings. -/
def operatorMarks : List String :=
  [">>>=", "**=", "<<=", ">>=", "&&=", "||=", "??=", ">>>", "===", "!==", "...", "=>", "==", "!=",
   "<=", ">=", "&&", "||", "??", "**", "<<", ">>", "+=", "-=", "*=", "/=", "%=", "&=", "|=", "^=",
   "++", "--", "?.", "=", "<", ">", "+", "-", "*", "/", "%", "&", "|", "^", "!", "~", "?", ":"]

/-- The operator mark behind blanks and comments, and what remains behind it. -/
def operator (cs : Chars) : Option (String × Chars) :=
  let here := skip cs
  operatorMarks.findSome? fun m => (exactly m.toList here).map (m, ·)

/-- The operators between two operands. -/
def binaryMarks : List String :=
  ["&&", "||", "??", "==", "!=", "===", "!==", "<", ">", "<=", ">=", "<<", ">>", ">>>", "&", "|",
   "^", "+", "-", "*", "/", "%", "**"]

/-- The operators that assign. -/
def augmentedMarks : List String :=
  ["+=", "-=", "*=", "/=", "%=", "**=", "<<=", ">>=", ">>>=", "&=", "|=", "^=", "&&=", "||=",
   "??="]

/-- What remains behind an operator that is written with the given mark. -/
def operatorMark (text : String) (cs : Chars) : Option Chars :=
  match operator cs with
  | some (m, rest) => if m = text then some rest else none
  | none => none

/-! ### Functions and classes -/

/-- What remains behind a block of statements. -/
def blockEnd (r : Reader) (cs : Chars) : Option Chars :=
  (mark "\x7b" cs).bind fun rest => mark "\x7d" (many r.statementEnd rest)

/-- What remains behind the parameters and the body of a function. -/
def functionBodyEnd (r : Reader) (cs : Chars) : Option Chars :=
  (signatureEnd r false cs).bind (blockEnd r)

/-- A function expression, behind its keyword. -/
def functionExpression (r : Reader) (start rest : Chars) : Option (Expr × Chars) :=
  let generator := mark "*" rest
  (functionBodyEnd r (optional anyWord (generator.getD rest))).map
    (leafTo (if generator.isSome then .generator else .function) start)

/-- The words that may stand before a member of a class. -/
def classModifiers : List String :=
  ["public", "private", "protected", "static", "override", "readonly", "abstract", "declare",
   "async", "accessor", "get", "set"]

/-- What remains behind a field of a class from its type on. -/
def fieldEnd (r : Reader) (cs : Chars) : Option Chars :=
  let rest := optional (annotationEnd r true) cs
  let valued : Option Chars := match operatorMark "=" rest with
    | some behind => (r.expression true behind).map fun (_, rest) => rest
    | none => some rest
  valued.bind fun rest => (endStatement true rest).or
    (if (mark "\x7d" rest).isSome then some rest else none)

/-- What remains behind a member of a class that has a name. -/
def namedMemberEnd (r : Reader) (cs : Chars) : Option Chars := do
  let isName (rest : Chars) : Bool :=
    (propertyNameEnd r rest).isSome || (operatorMark "*" rest).isSome
  let modified (cs : Chars) : Option Chars :=
    (keywordAmong classModifiers cs).bind fun rest => if isName rest then some rest else none
  let rest := optional (mark "*") (many modified cs)
  let rest ← (indexEnd r rest).or (propertyNameEnd r rest)
  let rest := optional ((mark "?" ·)) rest
  match signatureEnd r true rest with
  | some behind => ((blockEnd r behind).map endBlock).or (endStatement false behind)
  | none => fieldEnd r (optional (mark "!") rest)

/-- What remains behind a member of a class. -/
def classMemberEnd (r : Reader) (cs : Chars) : Option Chars :=
  match mark ";" cs with
  | some rest => some rest
  | none =>
    let cs := many (decoratorEnd r) cs
    let initializer := (keyword "static" cs).bind (blockEnd r)
    initializer.or (namedMemberEnd r cs)

/-- What remains behind the body of a class. -/
def classBodyEnd (r : Reader) (cs : Chars) : Option Chars :=
  (mark "\x7b" cs).bind fun rest => mark "\x7d" (many (classMemberEnd r) rest)

/-- What remains behind what a class is derived from. -/
def heritageEnd (r : Reader) (cs : Chars) : Chars :=
  let parent (cs : Chars) : Option Chars :=
    (r.operand false cs).map fun (_, rest) => optional (typeArgumentsEnd r) rest
  let extended := optional (fun cs => (keyword "extends" cs).bind (separatedEnd parent)) cs
  optional (fun cs => (keyword "implements" cs).bind (separatedEnd (r.typeEnd false))) extended

/-- What remains behind a class, behind its keyword and its name. -/
def classRestEnd (r : Reader) (cs : Chars) : Option Chars :=
  classBodyEnd r (heritageEnd r (optional (typeParametersEnd r) cs))

/-- A class expression, behind its keyword. -/
def classExpression (r : Reader) (start rest : Chars) : Option (Expr × Chars) :=
  let named := (anyWord rest).bind fun behind =>
    if (keywordAmong ["extends", "implements"] rest).isSome then none else classRestEnd r behind
  (named.or (classRestEnd r rest)).map (leafTo .classBody start)

/-! ### Arrays and objects -/

/-- An item of an array or an argument of a call. -/
def item (r : Reader) (cs : Chars) : Option (Expr × Chars) :=
  match mark "..." cs with
  | some rest => (r.expression false rest).map fun (_, rest) => leafTo .spread (skip cs) rest
  | none => r.expression false cs

/-- How the key of a member is written, given what remains at its start. -/
def keyKind : Chars → Kind
  | '[' :: _ => .computedKey
  | '#' :: _ => .privateKey
  | c :: _ => if c = '"' || c = '\'' then .string else if c.isDigit || c = '.' then .number
    else .identifier
  | [] => .identifier

/-- A method of an object, from `cs` on. -/
def objectMethod (r : Reader) (start cs : Chars) : Option (Member × Chars) := do
  let modified (cs : Chars) : Option Chars :=
    (keywordAmong classModifiers cs).bind fun rest =>
      if (propertyNameEnd r rest).isSome || (operatorMark "*" rest).isSome then some rest else none
  let rest ← propertyNameEnd r (optional (mark "*") (many modified cs))
  let rest ← functionBodyEnd r (optional (mark "?") rest)
  return (.other .method ⟨start, rest⟩, rest)

/-- A pair of a key and a value. -/
def objectPair (r : Reader) (start : Chars) : Option (Member × Chars) := do
  let behind ← propertyNameEnd r start
  let (value, rest) ← (mark ":" behind).bind (r.expression false)
  return (.pair ⟨keyKind start, ⟨start, behind⟩⟩ value ⟨start, rest⟩, rest)

/-- Whether the member ends in front of the text. -/
def endsMember (cs : Chars) : Bool :=
  (mark "," cs).isSome || (mark "\x7d" cs).isSome

/-- A member of an object. -/
def objectMember (r : Reader) (cs : Chars) : Option (Member × Chars) :=
  let start := skip cs
  match mark "..." cs with
  | some rest => (r.expression false rest).map fun (_, rest) => (.other .spread ⟨start, rest⟩, rest)
  | none =>
    match wordHere start with
    | some (_, rest) =>
      if endsMember rest then some (.shorthand ⟨start, rest⟩, rest)
      else (objectPair r start).or (objectMethod r start start)
    | none => (objectPair r start).or (objectMethod r start start)

/-! ### Members, calls and other things behind an expression -/

/-- What remains at the start of an expression. -/
def Expr.start (e : Expr) : Chars :=
  e.fragment.start

/-- Expressions separated by commas. -/
def sequence (r : Reader) (lineEnds : Bool) (cs : Chars) : Option (Expr × Chars) := do
  let (first, rest) ← r.expression lineEnds cs
  let more (cs : Chars) : Option Chars :=
    (mark "," cs).bind fun rest => (r.expression lineEnds rest).map (·.2)
  match more rest with
  | none => return (first, rest)
  | some behind => return leafTo .sequence first.start (many more behind)

/-- An expression followed by the name of a member or by a member in brackets. -/
def memberStep (r : Reader) (e : Expr) (cs : Chars) : Option (Expr × Chars) :=
  match skip cs with
  | '.' :: rest =>
    match (anyWord rest).or (privateName rest) with
    | some rest => some (leafTo .member e.start rest)
    | none => none
  | '[' :: rest => (sequence r false rest).bind fun (_, rest) =>
    (mark "]" rest).map (leafTo .subscript e.start)
  | _ => none

/-- The arguments of a call, behind the opening parenthesis. -/
def arguments (r : Reader) (cs : Chars) : Option (List Expr × Chars) :=
  list true (item r) ")" cs

/-- A call of an expression, behind the opening parenthesis. -/
def callFrom (r : Reader) (e : Expr) (typed : Bool) (cs : Chars) : Option (Expr × Chars) :=
  (arguments r cs).map fun (args, rest) =>
    (.call e.kind e.fragment typed args ⟨e.start, rest⟩, rest)

/-- An expression followed by a call or a member, if the expression has a value. -/
def optionalStep (r : Reader) (e : Expr) (cs : Chars) : Option (Expr × Chars) := do
  let rest ← mark "?." cs
  if (rest.head?.map Char.isDigit).getD false then none
  else match skip rest with
    | '(' :: rest => callFrom r e false rest
    | '[' :: _ => memberStep r e rest
    | '<' :: _ => (typeArgumentsEnd r rest).bind fun rest => (mark "(" rest).bind (callFrom r e true)
    | _ =>
      match (anyWord rest).or (privateName rest) with
      | some rest => some (leafTo .member e.start rest)
      | none => none

/-- Whether nothing behind an operand can be an operand again. -/
def endsOperand (cs : Chars) : Bool :=
  match skip cs with
  | [] => true
  | c :: _ => [')', ']', '\x7d', ',', ';', ':'].contains c

/-- An expression with one more thing behind it. -/
def suffixStep (r : Reader) (lineEnds : Bool) (e : Expr) (cs : Chars) : Option (Expr × Chars) :=
  match skip cs with
  | '.' :: _ | '[' :: _ => memberStep r e cs
  | '(' :: rest => callFrom r e false rest
  | '?' :: '.' :: _ => optionalStep r e cs
  | '<' :: _ => (typeArgumentsEnd r cs).bind fun rest =>
    match mark "(" rest with
    | some behind => callFrom r e true behind
    | none => if endsOperand rest then some (leafTo .instantiation e.start rest) else none
  | '\u0060' :: rest =>
    (templateHere (fun cs => (sequence r false cs).map (·.2)) ('\u0060' :: rest)).map
      fun (_, rest) => (.tagged e.kind e.fragment ⟨e.start, rest⟩, rest)
  | '!' :: rest =>
    if rest.head? = some '=' || ! continues lineEnds cs then none
    else some (leafTo .nonNull e.start rest)
  | _ => none

/-! ### Expressions without operators -/

/-- The creation of an object, behind its keyword. -/
def newExpression (r : Reader) (start rest : Chars) : Option (Expr × Chars) :=
  match (mark "." rest).bind (keyword "target") with
  | some rest => some (leafTo .metaProperty start rest)
  | none => do
    let (made, rest) ← r.primary rest
    let (_, rest) := extend (memberStep r) made rest
    let typed := typeArgumentsEnd r rest
    match (mark "(" (typed.getD rest)).bind (arguments r) with
    | some (_, rest) => return leafTo .new start rest
    | none => return leafTo .new start (typed.getD rest)

/-- An expression in parentheses, behind the opening one. -/
def parenthesizedExpression (r : Reader) (start rest : Chars) : Option (Expr × Chars) := do
  let (inner, rest) ← sequence r false rest
  let rest ← mark ")" (optional (annotationEnd r false) rest)
  return (.parenthesized inner ⟨start, rest⟩, rest)

/-- An expression that starts with a word. -/
def wordExpression (r : Reader) (start : Chars) (text : String) (rest : Chars) :
    Option (Expr × Chars) :=
  match text with
  | "this" => some (leafTo .this start rest)
  | "super" => some (leafTo .super start rest)
  | "null" => some (leafTo .null start rest)
  | "true" => some (leafTo .trueLiteral start rest)
  | "false" => some (leafTo .falseLiteral start rest)
  | "undefined" => some (leafTo .undefined start rest)
  | "function" => functionExpression r start rest
  | "class" => classExpression r start rest
  | "new" =>
    if endsOperand rest then some (leafTo .identifier start rest) else newExpression r start rest
  | "async" =>
    match if continues true rest then keyword "function" rest else none with
    | some behind => functionExpression r start behind
    | none => some (leafTo .identifier start rest)
  | "import" =>
    match (mark "." rest).bind (keyword "meta") with
    | some behind => some (leafTo .metaProperty start behind)
    | none => if (mark "(" rest).isSome then some (leafTo .importWord start rest) else none
  | "typeof" | "void" | "delete" | "await" | "yield" => none
  | _ => some (leafTo .identifier start rest)

/-- An expression without operators, calls and members. -/
def primaryRule (r : Reader) (cs : Chars) : Option (Expr × Chars) :=
  let start := skip cs
  match start with
  | [] => none
  | c :: rest =>
    if c = '(' then parenthesizedExpression r start rest
    else if c = '[' then (list true (item r) "]" rest).map fun (items, rest) =>
      (.array items ⟨start, rest⟩, rest)
    else if c = '\x7b' then (list true (objectMember r) "\x7d" rest).map fun (members, rest) =>
      (.object members ⟨start, rest⟩, rest)
    else if c = '"' || c = '\'' then (stringHere start).map (leafTo .string start)
    else if c = '\u0060' then
      (templateHere (fun cs => (sequence r false cs).map (·.2)) start).map fun (filled, rest) =>
        (.template filled ⟨start, rest⟩, rest)
    else if c = '/' then (regexHere start).map fun (token, rest) =>
      (.regex token.pattern token.flags ⟨start, rest⟩, rest)
    else if c.isDigit || c = '.' then (numberHere start).map (leafTo .number start)
    else if c = '@' then (keyword "class" (many (decoratorEnd r) start)).bind
      (classExpression r start)
    else match wordHere start with
      | some (w, rest) => wordExpression r start (String.ofList w) rest
      | none => none

/-! ### Operands -/

/-- An expression with everything that follows it but operators. -/
def suffixed (r : Reader) (lineEnds : Bool) (cs : Chars) : Option (Expr × Chars) :=
  (primaryRule r cs).map fun (e, rest) => extend (suffixStep r lineEnds) e rest

/-- An operand that is counted up or down afterwards. -/
def counted (r : Reader) (lineEnds : Bool) (cs : Chars) : Option (Expr × Chars) := do
  let (e, rest) ← suffixed r lineEnds cs
  match (operatorMark "++" rest).or (operatorMark "--" rest) with
  | some behind =>
    return if continues lineEnds rest then leafTo .update e.start behind else (e, rest)
  | none => return (e, rest)

/-- The words that are operators before an operand. -/
def prefixWords : List String := ["typeof", "void", "delete"]

/-- An operand behind an operator that starts at `start`. -/
def prefixed (r : Reader) (lineEnds : Bool) (start mark rest : Chars) : Option (Expr × Chars) :=
  (r.operand lineEnds rest).map fun (e, rest) => (.unary mark e ⟨start, rest⟩, rest)

/-- An operand with its prefix operators. -/
def operandRule (r : Reader) (lineEnds : Bool) (cs : Chars) : Option (Expr × Chars) :=
  let start := skip cs
  match operator start with
  | some (m, rest) =>
    if m = "!" || m = "~" || m = "+" || m = "-" then prefixed r lineEnds start m.toList rest
    else if m = "++" || m = "--" then
      (r.operand lineEnds rest).map fun (_, rest) => leafTo .update start rest
    else if m = "<" then do
      let rest ← r.typeEnd false rest
      let rest ← mark ">" rest
      let (_, rest) ← r.operand lineEnds rest
      return leafTo .typeAssertion start rest
    else if m = "/" || m = "/=" then counted r lineEnds start
    else none
  | none =>
    match wordHere start with
    | some (w, rest) =>
      if prefixWords.contains (String.ofList w) then prefixed r lineEnds start w rest
      else if w = "await".toList then
        (r.operand lineEnds rest).map fun (_, rest) => leafTo .await start rest
      else counted r lineEnds start
    | none => counted r lineEnds start

/-- An operand with one more operator and operand behind it. -/
def binaryStep (r : Reader) (lineEnds : Bool) (e : Expr) (cs : Chars) : Option (Expr × Chars) :=
  match operator cs with
  | some (m, rest) =>
    if binaryMarks.contains m then
      (operandRule r lineEnds rest).map fun (_, rest) => leafTo .binary e.start rest
    else none
  | none =>
    match word cs with
    | none => none
    | some (w, rest) =>
      if w = "in".toList || w = "instanceof".toList then
        (operandRule r lineEnds rest).map fun (_, rest) => leafTo .binary e.start rest
      else if w = "as".toList then
        if continues lineEnds cs then (r.typeEnd false rest).map (leafTo .asType e.start) else none
      else if w = "satisfies".toList then
        if continues lineEnds cs then (r.typeEnd false rest).map (leafTo .satisfiesType e.start)
        else none
      else none

/-- The test whether an object has a private member. -/
def privateTest (r : Reader) (lineEnds : Bool) (cs : Chars) : Option (Expr × Chars) := do
  let rest ← (privateName cs).bind (keyword "in")
  let (_, rest) ← r.operand lineEnds rest
  return leafTo .binary (skip cs) rest

/-- A chain of operators and operands. -/
def chain (r : Reader) (lineEnds : Bool) (cs : Chars) : Option (Expr × Chars) :=
  ((operandRule r lineEnds cs).or (privateTest r lineEnds cs)).map fun (e, rest) =>
    extend (binaryStep r lineEnds) e rest

/-! ### Choices and assignments -/

/-- What remains behind the alternatives of a choice, the first of which is read by `first`. -/
def alternativesEnd (r : Reader) (lineEnds : Bool) (first : Chars → Option (Expr × Chars))
    (cs : Chars) : Option Chars := do
  let (_, rest) ← first cs
  let rest ← mark ":" rest
  let (_, rest) ← r.expression lineEnds rest
  return rest

/-- A chain, or a choice that depends on it. The colon behind parentheses ends the first
alternative, unless another colon follows: then it starts the result type of an arrow function. -/
def choice (r : Reader) (lineEnds : Bool) (cs : Chars) : Option (Expr × Chars) := do
  let (e, rest) ← chain r lineEnds cs
  match operatorMark "?" rest with
  | none => return (e, rest)
  | some behind =>
    let short := alternativesEnd r lineEnds (chain r false) behind
    let rest ← (short.filter fun rest => (mark ":" rest).isNone).or
      ((alternativesEnd r lineEnds (r.expression false) behind).or short)
    return leafTo .ternary e.start rest

/-- Whether something can be assigned to an expression of the kind. -/
def Kind.isPlace : Kind → Bool
  | identifier | undefined | member | subscript | nonNull | parenthesized | object | array => true
  | _ => false

/-- A choice, or an assignment to it. -/
def assignment (r : Reader) (lineEnds : Bool) (cs : Chars) : Option (Expr × Chars) := do
  let (e, rest) ← choice r lineEnds cs
  match operator rest with
  | some (m, behind) =>
    if m = "=" && e.kind.isPlace then
      let (_, rest) ← r.expression lineEnds behind
      return leafTo .assignment e.start rest
    else if augmentedMarks.contains m && e.kind.isPlace then
      let (_, rest) ← r.expression lineEnds behind
      return leafTo .augmentedAssignment e.start rest
    else return (e, rest)
  | none => return (e, rest)

/-- An assignment to the names in a pattern. -/
def patternAssignment (r : Reader) (lineEnds : Bool) (cs : Chars) : Option (Expr × Chars) := do
  let rest ← r.patternEnd cs
  let (_, rest) ← (operatorMark "=" rest).bind (r.expression lineEnds)
  return leafTo .assignment (skip cs) rest

/-! ### Arrow functions -/

/-- What remains behind the parameters of an arrow function. -/
def arrowHeadEnd (r : Reader) (cs : Chars) : Option Chars :=
  match (signatureEnd r false cs).bind (operatorMark "=>") with
  | some rest => some rest
  | none => (anyWord cs).bind (operatorMark "=>")

/-- An arrow function. -/
def arrow (r : Reader) (lineEnds : Bool) (cs : Chars) : Option (Expr × Chars) := do
  let asynchronous := (keyword "async" cs).bind fun rest =>
    if continues true rest then arrowHeadEnd r rest else none
  let rest ← asynchronous.or (arrowHeadEnd r cs)
  match skip rest with
  | '\x7b' :: _ =>
    let rest ← blockEnd r rest
    return leafTo .arrow (skip cs) rest
  | _ =>
    let (_, rest) ← r.expression lineEnds rest
    return leafTo .arrow (skip cs) rest

/-- Handing out a value, or the values of another generator. -/
def yield (r : Reader) (lineEnds : Bool) (cs : Chars) : Option (Expr × Chars) := do
  let rest ← keyword "yield" cs
  match operatorMark "*" rest with
  | some rest =>
    let (_, rest) ← r.expression lineEnds rest
    return leafTo .yield (skip cs) rest
  | none =>
    match if continues lineEnds rest then r.expression lineEnds rest else none with
    | some (_, rest) => return leafTo .yield (skip cs) rest
    | none => return leafTo .yield (skip cs) rest

/-- Whether an expression that starts here and is followed by a colon may be the parameters of an
arrow function with a result type. -/
def mayBeParameters (start : Chars) : Bool :=
  start.head? == some '(' || start.head? == some '<' || (keyword "async" start).isSome

/-- Whether an asynchronous arrow function with type parameters, or with a single parameter that
has no parentheses, may start here. -/
def mayBeAsynchronous (cs : Chars) : Bool :=
  match keyword "async" cs with
  | some rest => (skip rest).head? == some '<' || (word rest).isSome
  | none => false

/-- An expression without commas that is no arrow function, or one that is read as such because of
what follows it. -/
def plainExpression (r : Reader) (lineEnds : Bool) (cs : Chars) : Option (Expr × Chars) :=
  match assignment r lineEnds cs with
  | some (e, rest) =>
    match operator rest with
    | some ("=>", _) => arrow r lineEnds cs
    | some (":", _) =>
      if mayBeParameters e.start then (arrow r lineEnds cs).or (some (e, rest))
      else some (e, rest)
    | _ => some (e, rest)
  | none =>
    ((arrow r lineEnds cs).or (yield r lineEnds cs)).or (patternAssignment r lineEnds cs)

/-- An expression without commas. -/
def expressionRule (r : Reader) (lineEnds : Bool) (cs : Chars) : Option (Expr × Chars) :=
  if mayBeAsynchronous cs then (arrow r lineEnds cs).or (plainExpression r lineEnds cs)
  else plainExpression r lineEnds cs

end Source

end ModuleScaffold
