import ModuleScaffold.Store
import ModuleScaffold.Store.PostOrder

/-!
# The order of declarations

Schema constants and kept statements are written so that each follows the declarations that its
evaluation reads. What a declaration reads is found by looking for names in its text; what a
statement declares is found by reading its first words and, for variables, the patterns in front
of their initializers. Functions may be used before they are declared, so they take no part.

Main definition: `Store.ordered`, the declarations in order or the names along a cycle.
-/

namespace ModuleScaffold

namespace Store

/-! ### What a statement declares -/

/-- A text behind the end of a comment that is open in it. -/
def behindComment (closing : List Char) : List Char → List Char
  | [] => []
  | c :: cs =>
    if closing.isPrefixOf (c :: cs) then (c :: cs).drop closing.length
    else behindComment closing cs

/-- A text without the comments at its start; at most `fuel` comments are removed. -/
def dropCommentsFrom : Nat → List Char → List Char
  | 0, cs => cs
  | fuel + 1, cs =>
    match cs.dropWhile Text.isBlank with
    | '/' :: '/' :: rest => dropCommentsFrom fuel (behindComment ['\n'] rest)
    | '/' :: '*' :: rest => dropCommentsFrom fuel (behindComment ['*', '/'] rest)
    | rest => rest

/-- A text without the blanks and comments at its start. -/
def dropComments (cs : List Char) : List Char :=
  dropCommentsFrom (cs.length + 1) cs

/-- The scan of a list of variables. -/
structure DeclaratorScan where
  /-- The names found so far. -/
  names : List (List Char) := []
  /-- How many brackets are open. -/
  depth : Int := 0
  /-- Whether the scan is in the pattern of a variable. -/
  inPattern : Bool := true
  /-- The text of the pattern under way. -/
  pattern : List Char := []
  /-- The quote mark of the text that is open. -/
  quoteMark : Option Char := none
  /-- Whether the next character of that text is escaped. -/
  escaped : Bool := false
  /-- Whether the list has ended. -/
  ended : Bool := false

namespace DeclaratorScan

/-- The names of the pattern under way are kept, and the next pattern starts empty. -/
def close (scan : DeclaratorScan) : DeclaratorScan :=
  { scan with names := scan.names ++ Text.identifiersIn scan.pattern, pattern := [] }

/-- A character is added to the pattern, if there is one under way. -/
def keep (scan : DeclaratorScan) (c : Char) : DeclaratorScan :=
  if scan.inPattern then { scan with pattern := scan.pattern ++ [c] } else scan

/-- The scan behind a character inside quotes. -/
def nextQuoted (scan : DeclaratorScan) (mark c : Char) : DeclaratorScan :=
  if scan.escaped then { scan with escaped := false }
  else if c = '\\' then { scan with escaped := true }
  else if c = mark then { scan with quoteMark := none }
  else scan

/-- The scan behind a character outside quotes. -/
def nextPlain (scan : DeclaratorScan) (c : Char) : DeclaratorScan :=
  if Text.isQuoteMark c then { scan with quoteMark := some c }.keep c
  else if c = '(' || c = '[' || c = '\x7b' then { scan with depth := scan.depth + 1 }.keep c
  else if c = ')' || c = ']' || c = '\x7d' then { scan with depth := scan.depth - 1 }.keep c
  else if (c = ':' || c = '=') && scan.depth = 0 && scan.inPattern then
    { scan.close with inPattern := false }
  else if c = ',' && scan.depth = 0 then { scan.close with inPattern := true }
  else if c = ';' && scan.depth = 0 then { scan with ended := true }
  else scan.keep c

/-- The scan behind a character. -/
def next (scan : DeclaratorScan) (c : Char) : DeclaratorScan :=
  if scan.ended then scan
  else match scan.quoteMark with
    | some mark => scan.nextQuoted mark c
    | none => scan.nextPlain c

end DeclaratorScan

/-- The names bound by a list of variables. -/
def declaratorNames (cs : List Char) : List String :=
  ((cs.foldl DeclaratorScan.next {}).close.names).map String.ofList

/-- The words that may stand in front of the word that says what is declared. -/
def modifiers : List String := ["export", "default", "declare", "async", "abstract"]

/-- The words that declare variables. -/
def variableWords : List String := ["const", "let", "var"]

/-- The words that declare a class or an enumeration. -/
def typeWords : List String := ["class", "enum"]

/-- The names that a statement without comments in front declares, after at most `fuel`
modifiers; nothing for a function, which may be used before it is declared. -/
def declaredFrom : Nat → List Char → Option (List String)
  | 0, _ => some []
  | fuel + 1, cs =>
    let (word, rest) := Text.splitWord cs
    let word := String.ofList word
    if modifiers.contains word then declaredFrom fuel rest
    else if word = "function" then none
    else if variableWords.contains word then some (declaratorNames rest)
    else if typeWords.contains word then
      let name := (Text.splitWord rest).1
      some (if Text.isIdentifierChars name then [String.ofList name] else [])
    else some []

/-- The names that a statement declares; nothing for a function. -/
def declaredNames (statement : String) : Option (List String) :=
  let cs := dropComments statement.toList
  declaredFrom (cs.length + 1) cs

/-! ### Dependencies -/

/-- A declaration of the file. -/
inductive Declaration
  /-- A schema constant. -/
  | schema (definition : Definition)
  /-- A statement. -/
  | statement (text : String)
  deriving DecidableEq, Repr

/-- A declaration with what matters for its place. -/
structure Node where
  /-- The declaration. -/
  item : Declaration
  /-- The text that is evaluated in its place. -/
  eager : String
  /-- The names it declares. -/
  bindings : List String
  deriving Repr

namespace Node

/-- The node of a schema constant. -/
def ofDefinition (d : Definition) : Node :=
  ⟨.schema d, d.expression, [d.name]⟩

/-- The node of a statement. -/
def ofStatement (text : String) : Node :=
  match declaredNames text with
  | some names => ⟨.statement text, text, names⟩
  | none => ⟨.statement text, "", []⟩

/-- How a declaration is called in a cycle: by its first name, or by the first line of its code. -/
def label (node : Node) : String :=
  match node.item with
  | .schema d => d.name
  | .statement text =>
    match node.bindings with
    | name :: _ => name
    | [] => ((Text.lines (String.ofList (dropComments text.toList))).head?).getD ""

/-- Whether evaluating one declaration reads a name of another. -/
def dependsOn (node other : Node) : Bool :=
  other.bindings.any (Text.mentions node.eager)

end Node

/-- The declarations of a store, constants first. -/
def nodes (store : Store) : List Node :=
  store.definitions.map .ofDefinition ++ store.statements.map .ofStatement

/-- The places of the other nodes that the node at the given place depends on. -/
def dependencies (nodes : List Node) (place : Nat) : List Nat :=
  match nodes[place]? with
  | none => []
  | some node =>
    (List.range nodes.length).filter fun other =>
      other != place && (nodes[other]?.map node.dependsOn).getD false

/-- The declarations in the order in which they are written, or the names along a cycle. -/
def ordered (store : Store) : Except (List String) (List Declaration) :=
  let nodes := store.nodes
  match PostOrder.order (dependencies nodes) nodes.length with
  | .ok places => .ok (places.filterMap fun i => (nodes[i]?).map (·.item))
  | .error places => .error (places.filterMap fun i => (nodes[i]?).map (·.label))

end Store

end ModuleScaffold
