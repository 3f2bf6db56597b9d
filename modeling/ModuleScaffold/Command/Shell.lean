import ModuleScaffold.Command.Script
import ModuleScaffold.Command.Tool

/-!
# Running scripts

`Command.run` runs a program by name with its arguments and its input. The programs are the tools
and `sh`, which runs the script behind its option `-c`; the words behind the script are its
parameters, counted from zero.
-/

namespace ModuleScaffold

namespace Command

/-! ### Words -/

/-- The parameters of a script. -/
structure Params where
  /-- The words, from zero on. -/
  words : List String
  /-- How the last command ended. -/
  status : Nat := 0

/-- The value of a variable. -/
def Params.value (params : Params) (name : List Char) : List Char :=
  if name = "IFS".toList then [' ', '\t', '\n']
  else if name = ['@'] || name = ['*'] then (" ".intercalate params.words.tail).toList
  else if name = ['#'] then Text.decimalDigits (params.words.length - 1)
  else if name = ['?'] then Text.decimalDigits params.status
  else match Text.readNumber 10 name with
    | some n => (params.words.getD n (if n = 0 then "sh" else "")).toList
    | none => []

/-- The name under which the script reports problems. -/
def Params.name (params : Params) : String :=
  params.words.headD "sh"

/-- Whether an unquoted value is cut here. -/
def cutsWords (c : Char) : Bool :=
  c == ' ' || c == '\t' || c == '\n'

/-- A value cut at blanks, after the letters of the word under way, if there is one. -/
def cutValue (current : Option (List Char)) : List Char → List (List Char) × Option (List Char)
  | [] => ([], current)
  | c :: cs =>
    if cutsWords c then
      let (words, last) := cutValue none cs
      (current.toList ++ words, last)
    else cutValue (some (current.getD [] ++ [c])) cs

/-- The words that a word becomes, after the letters of the word under way, if there is one. -/
def expandFrom (params : Params) (current : Option (List Char)) : Word → List (List Char)
  | [] => current.toList
  | .plain text :: parts => expandFrom params (some (current.getD [] ++ text)) parts
  | .variable name true :: parts =>
    expandFrom params (some (current.getD [] ++ params.value name)) parts
  | .variable name false :: parts =>
    let (words, last) := cutValue current (params.value name)
    words ++ expandFrom params last parts

/-- The words that the words of a command become. -/
def expand (params : Params) (words : List Word) : List String :=
  (words.flatMap (expandFrom params none)).map String.ofList

/-! ### Commands -/

/-- Where the streams of a command lead. -/
structure Streams where
  /-- Where its output leads. -/
  output : Sink := .stream .output
  /-- Where its errors lead. -/
  errors : Sink := .stream .errors

/-- Where a stream leads. -/
def Streams.sink (streams : Streams) : Stream → Sink
  | .output => streams.output
  | .errors => streams.errors

/-- The streams after a redirection. -/
def Streams.redirect (streams : Streams) : Redirect → Streams
  | .copy .output target => { streams with output := streams.sink target }
  | .copy .errors target => { streams with errors := streams.sink target }
  | .to .output target => { streams with output := target }
  | .to .errors target => { streams with errors := target }
  | .noInput => streams

/-- What arrives at a stream of the script. -/
def Streams.arriving (streams : Streams) (result : Result) (stream : Stream) : Octets :=
  (if streams.output = .stream stream then result.output else [])
    ++ (if streams.errors = .stream stream then result.errors else [])

/-- A result with its streams redirected. -/
def redirected (redirects : List Redirect) (result : Result) : Result :=
  let streams := redirects.foldl Streams.redirect {}
  { result with output := streams.arriving result .output
                errors := streams.arriving result .errors }

/-- A command by name; `nested` runs programs that are no tools of the shell itself. -/
def runWords (nested : String → List String → Octets → Option Result) (params : Params)
    (words : List String) (input : Octets) : Result :=
  match words with
  | [] => { input }
  | name :: args =>
    if name = "exit" then
      { input, exits := true
        status := ((args.head?.bind fun a => Text.readNumber 10 a.toList).getD params.status) % 256 }
    else if name = "true" || name = ":" then { input }
    else if name = "false" then { input, status := 1 }
    else match nested name args input with
      | some result => { result with exits := false }
      | none =>
        .failed (params.name ++ ": 1: " ++ name ++ ": not found") 127 input

/-- A simple command. -/
def runSimple (nested : String → List String → Octets → Option Result) (params : Params)
    (command : Simple) (input : Octets) : Result :=
  let noInput := command.redirects.contains .noInput
  let result := runWords nested params (expand params command.words) (if noInput then [] else input)
  redirected command.redirects (if noInput then { result with input := input } else result)

/-- The commands of a pipeline behind one with the given result. -/
def runPiped (nested : String → List String → Octets → Option Result) (params : Params)
    (before : Result) : List Simple → Result
  | [] => before
  | command :: rest =>
    let result := runSimple nested params command before.output
    runPiped nested params
      { result with errors := before.errors ++ result.errors
                    input := before.input
                    exits := false } rest

/-- A pipeline. -/
def runPipeline (nested : String → List String → Octets → Option Result) (params : Params)
    (commands : List Simple) (input : Octets) : Result :=
  match commands with
  | [] => { input }
  | command :: rest => runPiped nested params (runSimple nested params command input) rest

/-- Whether a step runs after a status. -/
def Joint.allows (joint : Joint) (status : Nat) : Bool :=
  match joint with
  | always => true
  | onSuccess => status == 0
  | onFailure => status != 0

/-- The steps of a script after others with the given result. -/
def runSteps (nested : String → List String → Octets → Option Result) (words : List String)
    (before : Result) : List Step → Result
  | [] => before
  | step :: rest =>
    if before.exits then before
    else if step.joint.allows before.status then
      let result := runPipeline nested ⟨words, before.status⟩ step.pipeline before.input
      runSteps nested words
        { result with output := before.output ++ result.output
                      errors := before.errors ++ result.errors } rest
    else runSteps nested words before rest

/-- A script with its parameters. -/
def runScript (nested : String → List String → Octets → Option Result) (script : String)
    (words : List String) (input : Octets) : Result :=
  match readScript script with
  | .ok steps => runSteps nested words { input } steps
  | .error problem =>
    .failed ((⟨words, 0⟩ : Params).name ++ ": 1: " ++ problem.message) 2 input

/-! ### Programs -/

/-- The shell with its arguments. -/
def runShell (nested : String → List String → Octets → Option Result) (args : List String)
    (input : Octets) : Result :=
  let illegal (option : String) : Result :=
    .failed ("sh: 0: Illegal option -" ++ String.ofList ((option.toList.drop 1).take 1)) 2 input
  match args with
  | [] => runScript nested (Octets.lenient input) [] []
  | "-c" :: rest =>
    match rest with
    | [] => .failed "sh: 0: -c requires an argument" 2 input
    | script :: words =>
      if script.toList.head? = some '-' then illegal script
      else runScript nested script words input
  | file :: _ =>
    if file.toList.head? = some '-' then illegal file
    else .failed ("sh: 0: cannot open " ++ file ++ ": No such file") 2 input

/-- A program by name with its arguments and its input, with at most `depth` shells inside each
other. There is no result if there is no such program. -/
def runAt : Nat → String → List String → Octets → Option Result
  | depth, name, args, input =>
    if name = "cat" then some (cat args input)
    else if name = "tr" then some (tr args input)
    else if name = "echo" then some (echo args input)
    else if name = "printf" then some (printf args input)
    else if name = "sh" then
      match depth with
      | 0 => none
      | depth + 1 => some (runShell (runAt depth) args input)
    else none

/-- How many shells may run inside each other. -/
def shellDepth : Nat := 16

/-- A program by name with its arguments and its input. -/
def run (name : String) (args : List String) (input : Octets) : Option Result :=
  runAt shellDepth name args input

end Command

end ModuleScaffold
