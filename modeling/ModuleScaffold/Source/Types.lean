import ModuleScaffold.Source.Reader

/-!
# Types

The grammar of types, of the patterns of variables, and of the parameters and members that carry
types. Nothing is kept of a type: every rule gives what remains behind it.
-/

namespace ModuleScaffold

namespace Source

/-! ### Templates -/

/-- What remains behind a template whose opening mark has been read, and whether anything is put
into it. `hole` reads what stands between braces; the template is read in at most `fuel` steps. -/
def templateFrom (hole : Chars → Option Chars) (filled : Bool) :
    Nat → Chars → Option (Bool × Chars)
  | 0, _ => none
  | _ + 1, [] => none
  | fuel + 1, c :: cs =>
    if c = '\u0060' then some (filled, cs)
    else if c = '\\' then
      match escapeLength (c :: cs) with
      | some n => templateFrom hole filled fuel (cs.drop (n - 1))
      | none => none
    else if c = '$' && cs.head? = some '\x7b' then
      match (hole (cs.drop 1)).bind (mark "\x7d") with
      | some rest => templateFrom hole true fuel rest
      | none => none
    else templateFrom hole filled fuel cs

/-- What remains behind a template, and whether anything is put into it. -/
def templateHere (hole : Chars → Option Chars) : Chars → Option (Bool × Chars)
  | '\u0060' :: cs => templateFrom hole false (cs.length + 1) cs
  | _ => none

/-! ### Names -/

/-- What remains behind a name with points and further names. -/
def pathEnd (cs : Chars) : Option Chars :=
  (anyWord cs).map (many fun rest => (mark "." rest).bind anyWord)

/-- What remains behind the name of a property. -/
def propertyNameEnd (r : Reader) (cs : Chars) : Option Chars :=
  match skip cs with
  | '[' :: rest => (r.expression false rest).bind fun (_, rest) => mark "]" rest
  | '#' :: rest => (wordHere rest).map (·.2)
  | here =>
    match wordHere here with
    | some (_, rest) => some rest
    | none => (stringHere here).or (numberHere here)

/-! ### Arguments and parameters of types -/

/-- What remains behind type arguments. -/
def typeArgumentsEnd (r : Reader) (cs : Chars) : Option Chars := do
  let rest ← mark "<" cs
  let rest ← separatedEnd (r.typeEnd false) rest
  mark ">" (optional (mark ",") rest)

/-- What remains behind a type parameter. -/
def typeParameterEnd (r : Reader) (cs : Chars) : Option Chars := do
  let modified (cs : Chars) : Option Chars :=
    (keywordAmong ["const", "in", "out"] cs).bind fun rest => (anyWord rest).map fun _ => rest
  let rest ← anyWord (many modified cs)
  let rest := optional (fun cs => (keyword "extends" cs).bind (r.typeEnd false)) rest
  return optional (fun cs => (mark "=" cs).bind (r.typeEnd false)) rest

/-- What remains behind type parameters. -/
def typeParametersEnd (r : Reader) (cs : Chars) : Option Chars := do
  let rest ← mark "<" cs
  let rest ← separatedEnd (typeParameterEnd r) rest
  mark ">" (optional (mark ",") rest)

/-- What remains behind a colon and a type. -/
def annotationEnd (r : Reader) (lineEnds : Bool) (cs : Chars) : Option Chars :=
  (mark ":" cs).bind (r.typeEnd lineEnds)

/-- What remains behind the statement that a name has a type, in the place of a result type. -/
def predicateEnd (r : Reader) (lineEnds : Bool) (cs : Chars) : Option Chars :=
  (anyWord cs).bind fun rest => (keyword "is" rest).bind (r.typeEnd lineEnds)

/-- What remains behind a result type. -/
def resultTypeEnd (r : Reader) (lineEnds : Bool) (cs : Chars) : Option Chars :=
  let asserted := (keyword "asserts" cs).bind fun rest =>
    (predicateEnd r lineEnds rest).or
      (if continues true rest then anyWord rest else none)
  (asserted.or (predicateEnd r lineEnds cs)).or (r.typeEnd lineEnds cs)

/-- What remains behind a colon and a result type. -/
def resultEnd (r : Reader) (lineEnds : Bool) (cs : Chars) : Option Chars :=
  (mark ":" cs).bind (resultTypeEnd r lineEnds)

/-! ### Parameters -/

/-- What remains behind a decorator. -/
def decoratorEnd (r : Reader) (cs : Chars) : Option Chars := do
  let rest ← mark "@" cs
  match skip rest with
  | '(' :: inner =>
    let (_, rest) ← r.expression false inner
    mark ")" rest
  | _ =>
    let rest ← pathEnd rest
    let argumentEnd (cs : Chars) : Option Chars :=
      (r.expression false (optional (mark "...") cs)).map (·.2)
    let args (cs : Chars) : Option Chars :=
      (mark "(" (optional (typeArgumentsEnd r) cs)).bind (listEnd true argumentEnd ")")
    return optional args rest

/-- The words that may stand before the name of a parameter. -/
def parameterModifiers : List String :=
  ["public", "private", "protected", "readonly", "override"]

/-- What remains behind an initial value. -/
def initialEnd (r : Reader) (cs : Chars) : Option Chars :=
  match skip cs with
  | '=' :: rest =>
    if rest.head? = some '=' || rest.head? = some '>' then none
    else (r.expression false rest).map (·.2)
  | _ => none

/-- What remains behind a parameter. -/
def parameterEnd (r : Reader) (cs : Chars) : Option Chars := do
  let modified (cs : Chars) : Option Chars :=
    (keywordAmong parameterModifiers cs).bind fun rest => (r.patternEnd rest).map fun _ => rest
  let rest := many modified (many (decoratorEnd r) cs)
  let rest ← r.patternEnd (optional (mark "...") rest)
  let rest := optional (mark "?") rest
  let rest := optional (annotationEnd r false) rest
  return optional (initialEnd r) rest

/-- What remains behind parameters in parentheses. -/
def parametersEnd (r : Reader) (cs : Chars) : Option Chars :=
  (mark "(" cs).bind (listEnd false (parameterEnd r) ")")

/-- What remains behind type parameters, parameters and a result type. -/
def signatureEnd (r : Reader) (lineEnds : Bool) (cs : Chars) : Option Chars :=
  (parametersEnd r (optional (typeParametersEnd r) cs)).map (optional (resultEnd r lineEnds))

/-! ### Patterns -/

/-- What remains behind a part of a pattern with an initial value. -/
def patternPartEnd (r : Reader) (cs : Chars) : Option Chars :=
  match mark "..." cs with
  | some rest => r.patternEnd rest
  | none => (r.patternEnd cs).map (optional (initialEnd r))

/-- What remains behind a part of the pattern of an object. -/
def patternMemberEnd (r : Reader) (cs : Chars) : Option Chars :=
  let keyed := (propertyNameEnd r cs).bind fun rest =>
    (mark ":" rest).bind (patternPartEnd r)
  keyed.or <| match mark "..." cs with
    | some rest => r.patternEnd rest
    | none => (anyWord cs).map (optional (initialEnd r))

/-- What remains behind the pattern of a variable: a name, or names in the shape of an object or
an array. -/
def patternRule (r : Reader) (cs : Chars) : Option Chars :=
  match skip cs with
  | '\x7b' :: rest => listEnd true (patternMemberEnd r) "\x7d" rest
  | '[' :: rest => listEnd true (patternPartEnd r) "]" rest
  | _ => anyWord cs

/-! ### Members of object types -/

/-- What remains behind a bracket with the name of a key and its type, or the range of a key. -/
def indexEnd (r : Reader) (cs : Chars) : Option Chars := do
  let rest ← mark "[" cs
  let rest ← anyWord rest
  match (mark ":" rest).bind (r.typeEnd false) with
  | some rest => mark "]" rest
  | none =>
    let rest ← keyword "in" rest
    let rest ← r.typeEnd false rest
    mark "]" (optional (fun cs => (keyword "as" cs).bind (r.typeEnd false)) rest)

/-- What remains behind a mark that makes a member optional or takes that away. -/
def optionalMark (cs : Chars) : Option Chars :=
  ((mark "?" cs).or (mark "-?" cs)).or (mark "+?" cs)

/-- The words that may stand before a member of an object type. -/
def memberModifiers : List String :=
  ["readonly", "get", "set", "static", "public", "private", "protected", "override", "abstract"]

/-- What remains behind a member of an object type. -/
def typeMemberEnd (r : Reader) (cs : Chars) : Option Chars :=
  let isName (rest : Chars) : Bool := (propertyNameEnd r rest).isSome
  let modified (cs : Chars) : Option Chars :=
    let behind := (keywordAmong memberModifiers cs).or
      (((mark "-" cs).or (mark "+" cs)).bind (keyword "readonly"))
    behind.bind fun rest => if isName rest then some rest else none
  let created := (keyword "new" cs).bind (signatureEnd r true)
  let called := signatureEnd r true cs
  let cs := many modified cs
  let named := ((indexEnd r cs).or (propertyNameEnd r cs)).map fun rest =>
    let rest := optional optionalMark rest
    match signatureEnd r true rest with
    | some rest => rest
    | none => optional (annotationEnd r true) rest
  (created.or called).or named

/-- What remains behind a member of an object type and what separates it from the next. -/
def separatedMemberEnd (r : Reader) (cs : Chars) : Option Chars :=
  match (mark "," cs).or (mark ";" cs) with
  | some rest => some rest
  | none => (typeMemberEnd r cs).bind fun rest =>
    ((mark "," rest).or (endStatement false rest)).or
      (if (mark "\x7d" rest).isSome then some rest else none)

/-- What remains behind an object type. -/
def objectTypeEnd (r : Reader) (cs : Chars) : Option Chars :=
  (mark "\x7b" cs).bind fun rest => mark "\x7d" (many (separatedMemberEnd r) rest)

/-! ### Types -/

/-- What remains behind a member of a tuple. -/
def tupleMemberEnd (r : Reader) (cs : Chars) : Option Chars :=
  let cs := optional (mark "...") cs
  let named := (anyWord cs).bind fun rest => annotationEnd r false (optional (mark "?") rest)
  named.or ((r.typeEnd false cs).map (optional (mark "?")))

/-- What remains behind the type of a function. -/
def functionTypeEnd (r : Reader) (lineEnds : Bool) (cs : Chars) : Option Chars := do
  let rest ← parametersEnd r (optional (typeParametersEnd r) cs)
  let rest ← mark "=>" rest
  resultTypeEnd r lineEnds rest

/-- What remains behind the type of a class. -/
def constructorTypeEnd (r : Reader) (lineEnds : Bool) (cs : Chars) : Option Chars :=
  (keyword "new" (optional (keyword "abstract") cs)).bind (functionTypeEnd r lineEnds)

/-- What remains behind the type of a value. -/
def typeQueryEnd (r : Reader) (cs : Chars) : Option Chars := do
  let rest ← keyword "typeof" cs
  let imported := (keyword "import" rest).bind fun rest =>
    (mark "(" rest).bind fun rest => (string rest).bind (mark ")")
  let rest ← imported.or (anyWord rest)
  let memberEnd (cs : Chars) : Option Chars :=
    (mark "." cs).bind fun rest => (anyWord rest).or (privateName rest)
  return optional (typeArgumentsEnd r) (many memberEnd rest)

/-- What remains behind a type that is named. -/
def namedTypeEnd (r : Reader) (cs : Chars) : Option Chars :=
  let imported := (keyword "import" cs).bind fun rest =>
    (mark "(" rest).bind fun rest => (string rest).bind fun rest =>
      (mark ")" rest).map (many fun rest => (mark "." rest).bind anyWord)
  (imported.or (pathEnd cs)).map (optional (typeArgumentsEnd r))

/-- What remains behind a type without operators. -/
def primaryTypeEnd (r : Reader) (cs : Chars) : Option Chars :=
  match skip cs with
  | [] => none
  | c :: rest =>
    if c = '(' then (r.typeEnd false rest).bind (mark ")")
    else if c = '\x7b' then objectTypeEnd r (c :: rest)
    else if c = '[' then listEnd false (tupleMemberEnd r) "]" rest
    else if c = '"' || c = '\'' then stringHere (c :: rest)
    else if c = '\u0060' then (templateHere (r.typeEnd false) (c :: rest)).map (·.2)
    else if c = '-' then numberHere (skip rest)
    else if c.isDigit || c = '.' then numberHere (c :: rest)
    else (typeQueryEnd r (c :: rest)).or (namedTypeEnd r (c :: rest))

/-- What remains behind the brackets that make a type that of an array or of a member. -/
def typeSuffixEnd (r : Reader) (lineEnds : Bool) (cs : Chars) : Option Chars :=
  if continues lineEnds cs then
    (mark "[" cs).bind fun rest =>
      (mark "]" rest).or ((r.typeEnd false rest).bind (mark "]"))
  else none

/-- What remains behind a type with the words before it and the brackets behind it; at most `fuel`
words are read. -/
def typeOperandFrom (r : Reader) (lineEnds : Bool) : Nat → Chars → Option Chars
  | 0, _ => none
  | fuel + 1, cs =>
    let worded := (keywordAmong ["keyof", "readonly", "unique"] cs).bind
      (typeOperandFrom r lineEnds fuel)
    let inferred := (keyword "infer" cs).bind fun rest => (anyWord rest).map
      (optional fun rest => (keyword "extends" rest).bind (typeOperandFrom r lineEnds fuel))
    let special := (worded.or inferred).or
      ((functionTypeEnd r lineEnds cs).or (constructorTypeEnd r lineEnds cs))
    special.or ((primaryTypeEnd r cs).map (many (typeSuffixEnd r lineEnds)))

/-- What remains behind an operand of a type. -/
def typeOperandEnd (r : Reader) (lineEnds : Bool) (cs : Chars) : Option Chars :=
  typeOperandFrom r lineEnds (cs.length + 1) cs

/-- What remains behind a mark between the parts of a type. -/
def typeOperator (cs : Chars) : Option Chars :=
  (mark "|" cs).or (mark "&" cs)

/-- What remains behind the choice between two types that may follow a type. -/
def conditionEnd (r : Reader) (cs : Chars) : Option Chars := do
  let rest ← keyword "extends" cs
  let rest ← r.typeEnd false rest
  let rest ← mark "?" rest
  let rest ← r.typeEnd false rest
  let rest ← mark ":" rest
  r.typeEnd false rest

/-- What remains behind a type. -/
def typeRule (r : Reader) (lineEnds : Bool) (cs : Chars) : Option Chars := do
  let rest ← typeOperandEnd r lineEnds (optional typeOperator cs)
  let rest := many (fun cs => (typeOperator cs).bind (typeOperandEnd r lineEnds)) rest
  return if continues lineEnds rest then optional (conditionEnd r) rest else rest

end Source

end ModuleScaffold
