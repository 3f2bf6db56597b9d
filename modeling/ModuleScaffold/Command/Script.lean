import ModuleScaffold.Text.Digits

/-!
# Scripts

The scripts of a small shell: simple commands joined to pipelines, and pipelines one after the
other, on success or on failure. The words of a command are made of texts, quoted or not, and of
variables; its streams can be redirected to each other or to nowhere.
-/

namespace ModuleScaffold

namespace Command

/-- A part of a word. -/
inductive Part
  /-- A text that is taken as it is. -/
  | plain (text : List Char)
  /-- The value of a variable; unless quoted, it is cut at blanks. -/
  | variable (name : List Char) (quoted : Bool)
  deriving DecidableEq, Repr

/-- A word, as its parts. -/
abbrev Word := List Part

/-- The streams to which a command writes. -/
inductive Stream
  /-- What it makes. -/
  | output
  /-- What goes wrong. -/
  | errors
  deriving DecidableEq, Repr

/-- Where a stream leads. -/
inductive Sink
  /-- To a stream of the script. -/
  | stream (s : Stream)
  /-- To nowhere. -/
  | nowhere
  deriving DecidableEq, Repr

/-- What is done to a stream. -/
inductive Redirect
  /-- It leads where another one leads. -/
  | copy (source target : Stream)
  /-- It leads somewhere else. -/
  | to (source : Stream) (target : Sink)
  /-- Nothing is read. -/
  | noInput
  deriving DecidableEq, Repr

/-- A simple command. -/
structure Simple where
  /-- The name and the arguments. -/
  words : List Word := []
  /-- What is done to its streams, in order. -/
  redirects : List Redirect := []
  deriving DecidableEq, Repr

/-- Whether there is no command. -/
def Simple.isEmpty (command : Simple) : Bool :=
  command.words.isEmpty && command.redirects.isEmpty

/-- When a pipeline runs. -/
inductive Joint
  /-- In any case. -/
  | always
  /-- If the one before it succeeded. -/
  | onSuccess
  /-- If the one before it failed. -/
  | onFailure
  deriving DecidableEq, Repr

/-- A step of a script. -/
structure Step where
  /-- When it runs. -/
  joint : Joint
  /-- The commands, each of which reads what the one before it writes. -/
  pipeline : List Simple
  deriving DecidableEq, Repr

/-- Why a text is no script. -/
inductive ScriptProblem
  /-- A quote is not closed. -/
  | openQuote
  /-- A mark stands where a command is wanted. -/
  | unexpected (mark : String)
  /-- The script ends where a command is wanted. -/
  | ended
  deriving DecidableEq, Repr

/-- The problem in words. -/
def ScriptProblem.message : ScriptProblem → String
  | openQuote => "Syntax error: Unterminated quoted string"
  | unexpected mark => "Syntax error: \"" ++ mark ++ "\" unexpected"
  | ended => "Syntax error: end of file unexpected"

/-! ### Words -/

/-- A character that ends a word. -/
def endsWord (c : Char) : Bool :=
  c == ' ' || c == '\t' || c == '\n' || c == ';' || c == '|' || c == '&' || c == '<' || c == '>'
    || c == '(' || c == ')'

/-- The text behind an opening single quote, and what remains behind the closing one. -/
def singleQuoted : List Char → Except ScriptProblem (List Char × List Char)
  | [] => .error .openQuote
  | c :: cs =>
    if c = '\'' then .ok ([], cs)
    else match singleQuoted cs with
      | .ok (text, rest) => .ok (c :: text, rest)
      | .error e => .error e

/-- The variable behind a dollar sign, and what remains behind it; nothing if the sign stands for
itself. -/
def variableHere (quoted : Bool) (cs : List Char) : Option (Part × List Char) :=
  match cs with
  | '\x7b' :: rest =>
    let (name, behind) := rest.span (· != '\x7d')
    some (.variable name quoted, behind.tail)
  | c :: rest =>
    if c.isDigit || c = '@' || c = '*' || c = '#' || c = '?' then some (.variable [c] quoted, rest)
    else if c.isAlpha || c = '_' then
      let (name, behind) := (c :: rest).span fun d => d.isAlphanum || d == '_'
      some (.variable name quoted, behind)
    else none
  | [] => none

/-- The parts behind an opening double quote, and what remains behind the closing one, read in at
most `fuel` steps. -/
def doubleQuoted : Nat → List Char → Except ScriptProblem (Word × List Char)
  | 0, _ | _, [] => .error .openQuote
  | fuel + 1, c :: cs =>
    if c = '"' then .ok ([.plain []], cs)
    else
      let (part, rest) : Part × List Char :=
        if c = '\\' then
          match cs with
          | d :: rest =>
            if d = '"' || d = '\\' || d = '$' || d = '`' then (.plain [d], rest)
            else (.plain [c, d], rest)
          | [] => (.plain [c], [])
        else if c = '$' then (variableHere true cs).getD (.plain [c], cs)
        else (.plain [c], cs)
      match doubleQuoted fuel rest with
      | .ok (parts, rest) => .ok (part :: parts, rest)
      | .error e => .error e

/-- The word at the start of a text, read in at most `fuel` steps; no parts if there is none. -/
def wordHere : Nat → List Char → Except ScriptProblem (Word × List Char)
  | 0, cs => .ok ([], cs)
  | _, [] => .ok ([], [])
  | fuel + 1, c :: cs =>
    if endsWord c then .ok ([], c :: cs)
    else do
      let (parts, rest) : Word × List Char ←
        if c = '\'' then do
          let (text, rest) ← singleQuoted cs
          pure ([Part.plain text], rest)
        else if c = '"' then doubleQuoted fuel cs
        else if c = '\\' then
          match cs with
          | d :: rest => pure ([.plain [d]], rest)
          | [] => pure ([.plain [c]], [])
        else if c = '$' then
          let (part, rest) := (variableHere false cs).getD (.plain [c], cs)
          pure ([part], rest)
        else pure ([.plain [c]], cs)
      let (more, rest) ← wordHere fuel rest
      return (parts ++ more, rest)

/-- The text of a word without variables. -/
def Word.text : Word → List Char
  | [] => []
  | .plain text :: parts => text ++ Word.text parts
  | .variable .. :: parts => Word.text parts

/-! ### Commands -/

/-- Where the text behind an arrow leads. -/
def sinkOf (target : List Char) : Sink :=
  if target = "/dev/stdout".toList then .stream .output
  else if target = "/dev/stderr".toList then .stream .errors
  else .nowhere

/-- The stream of a number. -/
def streamOf (c : Char) : Stream :=
  if c = '2' then .errors else .output

/-- What an arrow does to a stream, and what remains behind its target. -/
def redirectHere (fuel : Nat) (source : Stream) (cs : List Char) :
    Except ScriptProblem (Redirect × List Char) := do
  match cs with
  | '&' :: c :: rest => return (.copy source (streamOf c), rest)
  | _ =>
    let cs := if cs.head? = some '>' then cs.tail else cs
    let (target, rest) ← wordHere fuel (cs.dropWhile (· == ' '))
    return (.to source (sinkOf target.text), rest)

/-- A script under way. -/
structure Draft where
  /-- The steps that are complete. -/
  steps : List Step := []
  /-- When the step under way runs. -/
  joint : Joint := .always
  /-- The commands of the step under way that are complete. -/
  pipeline : List Simple := []
  /-- The command under way. -/
  command : Simple := {}

/-- The draft with its step complete, before a mark. -/
def Draft.endStep (draft : Draft) (next : Joint) (mark : ScriptProblem) :
    Except ScriptProblem Draft :=
  if draft.command.isEmpty then .error mark
  else .ok { steps := draft.steps ++ [⟨draft.joint, draft.pipeline ++ [draft.command]⟩],
             joint := next }

/-- The draft with its command complete. -/
def Draft.endCommand (draft : Draft) : Except ScriptProblem Draft :=
  if draft.command.isEmpty then .error (.unexpected "|")
  else .ok { draft with pipeline := draft.pipeline ++ [draft.command], command := {} }

/-- The steps of a draft at the end of the script. -/
def Draft.finish (draft : Draft) : Except ScriptProblem (List Step) :=
  if draft.command.isEmpty && draft.pipeline.isEmpty && draft.joint = .always then .ok draft.steps
  else do return (← draft.endStep .always .ended).steps

/-- The draft with a redirection. -/
def Draft.redirect (draft : Draft) (r : Redirect) : Draft :=
  { draft with
    command := { draft.command with redirects := draft.command.redirects ++ [r] } }

/-- The draft with a word. -/
def Draft.addWord (draft : Draft) (word : Word) : Draft :=
  { draft with command := { draft.command with words := draft.command.words ++ [word] } }

/-- The steps of a script from some place on, read in at most `fuel` steps. -/
def readFrom : Nat → Draft → List Char → Except ScriptProblem (List Step)
  | 0, draft, _ | _, draft, [] => draft.finish
  | fuel + 1, draft, c :: cs =>
    if c = ' ' || c = '\t' then readFrom fuel draft cs
    else if c = '\n' && draft.command.isEmpty then readFrom fuel draft cs
    else if c = ';' || c = '\n' then do
      readFrom fuel (← draft.endStep .always (.unexpected ";")) cs
    else if c = '|' then
      match cs with
      | '|' :: rest => do
        readFrom fuel (← draft.endStep .onFailure (.unexpected "||")) rest
      | _ => do readFrom fuel (← draft.endCommand) cs
    else if c = '&' then
      match cs with
      | '&' :: rest => do
        readFrom fuel (← draft.endStep .onSuccess (.unexpected "&&")) rest
      | _ => do readFrom fuel (← draft.endStep .always (.unexpected "&")) cs
    else if c = '>' then do
      let (r, rest) ← redirectHere fuel .output cs
      readFrom fuel (draft.redirect r) rest
    else if c = '<' then do
      let (_, rest) ← wordHere fuel (cs.dropWhile (· == ' '))
      readFrom fuel (draft.redirect .noInput) rest
    else if (c = '1' || c = '2') && cs.head? = some '>' then do
      let (r, rest) ← redirectHere fuel (streamOf c) cs.tail
      readFrom fuel (draft.redirect r) rest
    else if c = '(' || c = ')' then .error (.unexpected (String.ofList [c]))
    else do
      let (word, rest) ← wordHere (fuel + 1) (c :: cs)
      readFrom fuel (draft.addWord word) rest

/-- The steps of a script. -/
def readScript (script : String) : Except ScriptProblem (List Step) :=
  let cs := script.toList
  readFrom (cs.length + 1) {} cs

end Command

end ModuleScaffold
