import ModuleScaffold.Source.Expression

/-!
# Statements

The grammar of statements, and the reader that ties all rules together. Imports, variables and
exported values are read into items with their parts, all other statements into their fragments.

Main definitions: `statement`, the rule for one statement, and `reader`, the rules for a given
depth.
-/

namespace ModuleScaffold

namespace Source

/-- A statement of which nothing but the fragment matters. -/
def otherTo (start rest : Chars) : Item × Chars :=
  (.other ⟨start, rest⟩, rest)

/-! ### Imports -/

/-- What remains behind a name that is imported. -/
def importedNameEnd (cs : Chars) : Option Chars :=
  (anyWord cs).or (string cs)

/-- A specifier in a list of imported or exported names. -/
def specifier (cs : Chars) : Option (Fragment × Chars) :=
  let renamed (cs : Chars) : Option Chars :=
    (importedNameEnd cs).bind fun rest => (keyword "as" rest).bind importedNameEnd
  let marked (named : Chars → Option Chars) : Option Chars :=
    (keywordAmong ["type", "typeof"] cs).bind named
  let ended (rest : Option Chars) : Option Chars := rest.filter endsMember
  let found := ((ended (marked renamed)).or (ended (renamed cs))).or
    ((ended (marked importedNameEnd)).or (ended (importedNameEnd cs)))
  found.map fun rest => (⟨skip cs, rest⟩, rest)

/-- The whole of a source under a name, or a list of names. -/
def importGroup (cs : Chars) : Option (ImportPart × Chars) :=
  match skip cs with
  | '*' :: rest => do
    let rest ← (keyword "as" rest).bind anyWord
    return (.whole ⟨skip cs, rest⟩, rest)
  | '\x7b' :: rest => (list false specifier "\x7d" rest).map fun (specifiers, rest) =>
    (.named specifiers, rest)
  | _ => none

/-- What an import statement binds. -/
def importClause (cs : Chars) : Option (List ImportPart × Chars) :=
  match importGroup cs with
  | some (part, rest) => some ([part], rest)
  | none => do
    let rest ← anyWord cs
    let part := ImportPart.byDefault ⟨skip cs, rest⟩
    match (mark "," rest).bind importGroup with
    | some (more, rest) => return ([part, more], rest)
    | none => return ([part], rest)

/-- What remains behind the attributes of an import. -/
def attributesEnd (r : Reader) (cs : Chars) : Option Chars :=
  (keyword "with" cs).bind fun rest => (r.primary rest).map (·.2)

/-- The source behind the word `from`, and what remains behind its attributes. -/
def fromClause (r : Reader) (cs : Chars) : Option (Fragment × Chars) := do
  let rest ← keyword "from" cs
  let behind ← string rest
  return (⟨skip rest, behind⟩, optional (attributesEnd r) behind)

/-- An import of names from a source, behind the keyword. -/
def importFrom (r : Reader) (typesOnly : Bool) (cs : Chars) : Option (ImportForm × Chars) := do
  let (parts, rest) ← importClause cs
  let (source, rest) ← fromClause r rest
  return (.source typesOnly parts source, rest)

/-- An import for its effects, behind the keyword. -/
def importEffects (r : Reader) (cs : Chars) : Option (ImportForm × Chars) := do
  let behind ← string cs
  return (.source false [] ⟨skip cs, behind⟩, optional (attributesEnd r) behind)

/-- An import of what a call gives, behind the keyword. -/
def importRequired (cs : Chars) : Option (ImportForm × Chars) := do
  let rest ← (anyWord cs).bind (operatorMark "=")
  let rest ← (keyword "require" rest).bind (mark "(")
  let rest ← (string rest).bind (mark ")")
  return (.required, rest)

/-- What remains behind a name for a member of a namespace, behind the keyword. -/
def importAliasEnd (cs : Chars) : Option Chars :=
  ((anyWord cs).bind (operatorMark "=")).bind pathEnd

/-- An import statement. -/
def importStatement (r : Reader) (start rest : Chars) : Option (Item × Chars) :=
  let typed := keyword "type" rest
  let unmarked := (keywordAmong ["type", "typeof"] rest).getD rest
  let form := ((typed.bind (importFrom r true)).or (importFrom r false rest)).or
    (((keyword "typeof" rest).bind (importFrom r false)).or (importEffects r rest))
  match (form.or (importRequired rest)).or (importRequired unmarked) with
  | some (form, rest) =>
    (endStatement false rest).map fun rest => (.importing form ⟨start, rest⟩, rest)
  | none => ((importAliasEnd rest).bind (endStatement false)).map (otherTo start)

/-! ### Variables -/

/-- A variable with its type and its initializer. -/
def declarator (r : Reader) (cs : Chars) : Option (Declarator × Chars) := do
  let start := skip cs
  let behind ← r.patternEnd start
  let name : Option Fragment :=
    if start.head? = some '\x7b' || start.head? = some '[' then none else some ⟨start, behind⟩
  let rest := optional (annotationEnd r true) (optional (mark "!") behind)
  match operatorMark "=" rest with
  | some rest =>
    let (value, rest) ← r.expression true rest
    return (⟨name, some value, ⟨start, rest⟩⟩, rest)
  | none => return (⟨name, none, ⟨start, rest⟩⟩, rest)

/-- Further variables behind commas. -/
def moreDeclarators (r : Reader) (before : List Declarator) (cs : Chars) :
    Option (List Declarator × Chars) := do
  let rest ← mark "," cs
  let (d, rest) ← declarator r rest
  return (before ++ [d], rest)

/-- The variables of a statement. -/
def declarators (r : Reader) (cs : Chars) : Option (List Declarator × Chars) := do
  let (first, rest) ← declarator r cs
  return extend (moreDeclarators r) [first] rest

/-- A statement that declares variables, behind its keyword. -/
def declaring (r : Reader) (exported : Bool) (start rest : Chars) : Option (Item × Chars) := do
  let (ds, rest) ← declarators r rest
  let valued := (ds.getLast?.map (·.value.isSome)).getD false
  let rest ← endStatement valued rest
  return (.declaring exported true ds ⟨start, rest⟩, rest)

/-! ### Declarations -/

/-- What remains behind a function, behind its keyword. A function without a body is a
declaration of its type. -/
def functionDeclarationEnd (r : Reader) (cs : Chars) : Option Chars := do
  let rest ← anyWord (optional (mark "*") cs)
  let rest ← signatureEnd r true rest
  ((blockEnd r rest).map endBlock).or (endStatement false rest)

/-- What remains behind a class, behind its keyword. -/
def classDeclarationEnd (r : Reader) (cs : Chars) : Option Chars :=
  (anyWord cs).bind (classRestEnd r)

/-- What remains behind an interface, behind its keyword. -/
def interfaceEnd (r : Reader) (cs : Chars) : Option Chars := do
  let rest := optional (typeParametersEnd r) (← anyWord cs)
  let extended (cs : Chars) : Option Chars :=
    (keyword "extends" cs).bind (separatedEnd (namedTypeEnd r))
  objectTypeEnd r (optional extended rest)

/-- What remains behind the name of a type and what it stands for, behind the keyword. -/
def typeAliasEnd (r : Reader) (cs : Chars) : Option Chars := do
  let rest := optional (typeParametersEnd r) (← anyWord cs)
  let rest ← (mark "=" rest).bind (r.typeEnd true)
  endStatement false rest

/-- What remains behind a member of an enumeration. -/
def enumMemberEnd (r : Reader) (cs : Chars) : Option Chars :=
  (propertyNameEnd r cs).map (optional (initialEnd r))

/-- What remains behind an enumeration, behind its keyword. -/
def enumEnd (r : Reader) (cs : Chars) : Option Chars := do
  let rest ← (anyWord cs).bind (mark "\x7b")
  listEnd false (enumMemberEnd r) "\x7d" rest

/-- What remains behind the name of a namespace and its block, behind its keyword. A namespace
without a block is only announced. -/
def namespaceEnd (r : Reader) (cs : Chars) : Option Chars :=
  ((string cs).or (pathEnd cs)).map fun rest =>
    match blockEnd r rest with
    | some rest => endBlock rest
    | none => rest

/-- The words that start a declaration behind the word `declare`. -/
def declarationWords : List String :=
  ["const", "let", "var", "function", "async", "class", "abstract", "interface", "type", "enum",
   "namespace", "module", "import"]

/-- What remains behind a declaration of something that exists elsewhere, behind its keyword. -/
def ambientEnd (r : Reader) (cs : Chars) : Option Chars :=
  match keyword "global" cs with
  | some rest => (blockEnd r rest).map endBlock
  | none => (keywordAmong declarationWords cs).bind fun _ => r.statementEnd cs

/-- The words that only start a declaration if the rest of it follows on their line. -/
def softWords : List String := ["async", "type", "namespace", "module", "declare"]

/-- What remains behind a declaration that starts with the given word. -/
def declarationEnd (r : Reader) (text : String) (rest : Chars) : Option Chars :=
  if softWords.contains text && ! continues true rest then none
  else match text with
  | "function" => functionDeclarationEnd r rest
  | "async" => (keyword "function" rest).bind (functionDeclarationEnd r)
  | "class" => (classDeclarationEnd r rest).map endBlock
  | "abstract" => (keyword "class" rest).bind (classDeclarationEnd r)
  | "interface" => interfaceEnd r rest
  | "type" => typeAliasEnd r rest
  | "enum" => enumEnd r rest
  | "const" => (keyword "enum" rest).bind (enumEnd r)
  | "namespace" => (namespaceEnd r rest).map endBlock
  | "module" => namespaceEnd r rest
  | "declare" => ambientEnd r rest
  | _ => none

/-! ### Exports -/

/-- What remains behind a list of exported names or everything of a source, behind the keyword. -/
def exportListEnd (r : Reader) (cs : Chars) : Option Chars :=
  let cs := optional (keyword "type") cs
  match skip cs with
  | '*' :: rest => do
    let renamed (cs : Chars) : Option Chars := (keyword "as" cs).bind importedNameEnd
    let (_, rest) ← fromClause r (optional renamed rest)
    endStatement false rest
  | '\x7b' :: rest => do
    let (_, rest) ← list false specifier "\x7d" rest
    endStatement false (optional (fun cs => (fromClause r cs).map (·.2)) rest)
  | _ => none

/-- An exported value, from the value on. -/
def exportedValue (r : Reader) (start rest : Chars) : Option (Item × Chars) := do
  let (value, rest) ← r.expression true rest
  let rest ← endStatement true rest
  return (.exported value ⟨start, rest⟩, rest)

/-- What is exported as the default, behind the keyword. -/
def exportDefault (r : Reader) (start rest : Chars) : Option (Item × Chars) :=
  let declared := match word (many (decoratorEnd r) rest) with
    | some (w, behind) =>
      if ["function", "async", "class", "abstract", "interface", "enum"].contains (String.ofList w)
      then declarationEnd r (String.ofList w) behind else none
    | none => none
  (declared.map (otherTo start)).or (exportedValue r start rest)

/-- What remains behind the name under which everything is exported, behind the keyword. -/
def exportNamespaceEnd (cs : Chars) : Option Chars :=
  ((keyword "as" cs).bind (keyword "namespace")).bind fun rest =>
    (anyWord rest).bind (endStatement false)

/-- The words that declare variables. -/
def variableWord (text : String) : Bool :=
  text == "const" || text == "let" || text == "var"

/-- An export, behind the keyword. -/
def exportStatement (r : Reader) (start rest : Chars) : Option (Item × Chars) :=
  match operatorMark "=" rest with
  | some rest => exportedValue r start rest
  | none =>
    match ((exportListEnd r rest).or (exportNamespaceEnd rest)).or
        ((keyword "import" rest).bind fun rest => (importAliasEnd rest).bind (endStatement false))
      with
    | some rest => some (otherTo start rest)
    | none =>
      match word (many (decoratorEnd r) rest) with
      | none => none
      | some (w, behind) =>
        let text := String.ofList w
        if text = "default" then exportDefault r start behind
        else match declarationEnd r text behind with
          | some rest => some (otherTo start rest)
          | none => if variableWord text then declaring r true start behind else none

/-! ### Control -/

/-- What remains behind expressions in parentheses. -/
def conditionInParenthesesEnd (r : Reader) (cs : Chars) : Option Chars := do
  let rest ← mark "(" cs
  let (_, rest) ← sequence r false rest
  mark ")" (optional (annotationEnd r false) rest)

/-- What remains behind a condition and its branches, behind the keyword. -/
def ifEnd (r : Reader) (cs : Chars) : Option Chars := do
  let rest ← conditionInParenthesesEnd r cs
  let rest ← r.statementEnd rest
  return optional (fun cs => (keyword "else" cs).bind r.statementEnd) rest

/-- What remains behind the head of a loop over the items of something. -/
def loopOverEnd (r : Reader) (cs : Chars) : Option Chars := do
  let bound := (keywordAmong ["const", "let", "var"] cs).bind r.patternEnd
  let rest ← bound.or ((r.operand false cs).map (·.2))
  let rest ← keywordAmong ["in", "of"] rest
  let (_, rest) ← sequence r false rest
  mark ")" rest

/-- What remains behind the head of a loop with a start, a condition and a step. -/
def loopWhileEnd (r : Reader) (cs : Chars) : Option Chars := do
  let expressions (cs : Chars) : Option Chars := (sequence r false cs).map (·.2)
  let bound := (keywordAmong ["const", "let", "var"] cs).bind (declarators r)
  let rest ← mark ";" ((bound.map (·.2)).getD (optional expressions cs))
  let rest ← mark ";" (optional expressions rest)
  mark ")" (optional expressions rest)

/-- What remains behind a loop, behind the keyword. -/
def forEnd (r : Reader) (cs : Chars) : Option Chars := do
  let rest ← mark "(" (optional (keyword "await") cs)
  let rest ← (loopOverEnd r rest).or (loopWhileEnd r rest)
  r.statementEnd rest

/-- What remains behind a loop with its condition at the end, behind the keyword. -/
def doEnd (r : Reader) (cs : Chars) : Option Chars := do
  let rest ← r.statementEnd cs
  let rest ← (keyword "while" rest).bind (conditionInParenthesesEnd r)
  return optional (endStatement false) rest

/-- What remains behind a label of a choice and the statements under it. -/
def caseEnd (r : Reader) (cs : Chars) : Option Chars := do
  let labelled := (keyword "case" cs).bind fun rest => (sequence r false rest).map (·.2)
  let rest ← (labelled.or (keyword "default" cs)).bind (mark ":")
  let plain (cs : Chars) : Option Chars :=
    if (keywordAmong ["case", "default"] cs).isSome then none else r.statementEnd cs
  return many plain rest

/-- What remains behind a choice among labels, behind the keyword. -/
def switchEnd (r : Reader) (cs : Chars) : Option Chars := do
  let rest ← conditionInParenthesesEnd r cs
  let rest ← mark "\x7b" rest
  mark "\x7d" (many (caseEnd r) rest)

/-- What remains behind statements whose failure is caught, behind the keyword. -/
def tryEnd (r : Reader) (cs : Chars) : Option Chars := do
  let caught (cs : Chars) : Option Chars := do
    let rest ← keyword "catch" cs
    let parameter (cs : Chars) : Option Chars := do
      let rest ← (mark "(" cs).bind r.patternEnd
      mark ")" (optional (annotationEnd r false) rest)
    blockEnd r (optional parameter rest)
  let rest ← blockEnd r cs
  return optional (fun cs => (keyword "finally" cs).bind (blockEnd r)) (optional caught rest)

/-- What remains behind a result and the end of its statement, behind the keyword. -/
def returnEnd (r : Reader) (cs : Chars) : Option Chars :=
  match (if continues true cs then sequence r true cs else none) with
  | some (_, rest) => endStatement true rest
  | none => endStatement false cs

/-- What remains behind a jump to a label, behind the keyword. -/
def jumpEnd (cs : Chars) : Option Chars :=
  endStatement false (if continues true cs then optional anyWord cs else cs)

/-- What remains behind a statement that starts with a word for the flow of control. -/
def controlEnd (r : Reader) (text : String) (rest : Chars) : Option Chars :=
  match text with
  | "if" => ifEnd r rest
  | "for" => forEnd r rest
  | "while" | "with" => (conditionInParenthesesEnd r rest).bind r.statementEnd
  | "do" => doEnd r rest
  | "switch" => switchEnd r rest
  | "try" => tryEnd r rest
  | "return" => returnEnd r rest
  | "throw" => (sequence r true rest).bind fun (_, rest) => endStatement true rest
  | "break" | "continue" => jumpEnd rest
  | "debugger" => endStatement false rest
  | _ => none

/-- The words that start a statement for the flow of control. -/
def controlWords : List String :=
  ["if", "for", "while", "with", "do", "switch", "try", "return", "throw", "break", "continue",
   "debugger"]

/-! ### Statements -/

/-- Expressions as a statement. -/
def expressionStatement (r : Reader) (start : Chars) : Option (Item × Chars) := do
  let (value, rest) ← sequence r true start
  let rest ← endStatement true rest
  return (.expression value ⟨start, rest⟩, rest)

/-- What remains behind a label and the statement it names. -/
def labelledEnd (r : Reader) (rest : Chars) : Option Chars :=
  (operatorMark ":" rest).bind r.statementEnd

/-- A statement that starts with a word. -/
def wordStatement (r : Reader) (start : Chars) (text : String) (rest : Chars) :
    Option (Item × Chars) :=
  if text = "import" then (importStatement r start rest).or (expressionStatement r start)
  else if text = "export" then exportStatement r start rest
  else if controlWords.contains text then (controlEnd r text rest).map (otherTo start)
  else match declarationEnd r text rest with
    | some rest => some (otherTo start rest)
    | none =>
      if text = "function" || text = "class" then none
      else if variableWord text then (declaring r false start rest).or
        (if text = "let" then expressionStatement r start else none)
      else ((labelledEnd r rest).map (otherTo start)).or (expressionStatement r start)

/-- A statement. -/
def statement (r : Reader) (cs : Chars) : Option (Item × Chars) :=
  let start := skip cs
  match start with
  | [] => none
  | ';' :: rest => some (.empty ⟨start, rest⟩, rest)
  | '\x7b' :: _ => (blockEnd r start).map fun rest => otherTo start (endBlock rest)
  | '@' :: _ =>
    match word (many (decoratorEnd r) start) with
    | some (w, rest) => wordStatement r start (String.ofList w) rest
    | none => none
  | _ =>
    match wordHere start with
    | some (w, rest) => wordStatement r start (String.ofList w) rest
    | none => expressionStatement r start

/-- The rules, given the rules for what is nested. -/
def rules (r : Reader) : Reader where
  expression := expressionRule r
  operand := operandRule r
  primary := primaryRule r
  typeEnd := typeRule r
  patternEnd := patternRule r
  statementEnd cs := (statement r cs).map (·.2)

/-- The rules for texts that are nested at most the given number of times. -/
def reader : Nat → Reader
  | 0 => .none
  | depth + 1 => rules (reader depth)

end Source

end ModuleScaffold
