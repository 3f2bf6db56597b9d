import ModuleScaffold.Layout

/-!
# Arguments

The arguments of the program: a command with the place of the modules, and options. An option
comes in a long form, `--root P` or `--root=P`, or in a short one, `-r P`, `-rP` or `-r=P`; short
ones without a value can be joined. No option comes twice. Behind `--` there are no options.
-/

namespace ModuleScaffold

namespace Cli

/-- The options. -/
inductive Flag
  /-- The root of the project. -/
  | root
  /-- The source directory. -/
  | sourceDir
  /-- The middleware file. -/
  | middleware
  /-- Nothing is to be written. -/
  | dryRun
  /-- The format command. -/
  | formatCommand
  /-- More is to be reported. -/
  | verbose
  /-- The options are to be explained. -/
  | help
  deriving DecidableEq, Repr

/-- The commands. -/
inductive Verb
  /-- Write the files. -/
  | generate
  /-- Find out what would be written. -/
  | check
  deriving DecidableEq, Repr

/-- The name of a command. -/
def Verb.name : Verb → String
  | generate => "generate"
  | check => "check"

/-- The command of the given name. -/
def Verb.ofName? (name : String) : Option Verb :=
  [generate, check].find? (·.name == name)

namespace Flag

/-- The long form of an option. -/
def long : Flag → String
  | root => "root"
  | sourceDir => "src-dir"
  | middleware => "middleware"
  | dryRun => "dry-run"
  | formatCommand => "format-command"
  | verbose => "verbose"
  | help => "help"

/-- The short form of an option, if it has one. -/
def short? : Flag → Option Char
  | root => some 'r'
  | middleware => some 'm'
  | verbose => some 'v'
  | help => some 'h'
  | _ => none

/-- Whether an option has a value. -/
def takesValue : Flag → Bool
  | root | sourceDir | middleware | formatCommand => true
  | dryRun | verbose | help => false

/-- Whether the value of an option may be empty. -/
def mayBeEmpty (flag : Flag) : Bool :=
  flag == formatCommand

/-- The options before a command. -/
def general : List Flag := [verbose, help]

/-- The options of a command. -/
def ofVerb : Verb → List Flag
  | .generate => [root, sourceDir, middleware, dryRun, formatCommand, verbose, help]
  | .check => [root, sourceDir, middleware, verbose, help]

end Flag

/-- The arguments that have been read. -/
structure Given where
  /-- The options with their values. -/
  flags : List (Flag × String) := []
  /-- The other arguments. -/
  words : List String := []
  deriving DecidableEq, Repr

/-- Why arguments are not understood, or not followed. -/
inductive Stop
  /-- They break the rules. -/
  | usage
  /-- An explanation is asked for. -/
  | help
  deriving DecidableEq, Repr

namespace Given

/-- The arguments with an option and its value. -/
def addFlag (given : Given) (flag : Flag) (value : String) : Except Stop Given :=
  if flag = .help then .error .help
  else if given.flags.any (·.1 == flag) then .error .usage
  else if flag.takesValue && value.isEmpty && ! flag.mayBeEmpty then .error .usage
  else .ok { given with flags := given.flags ++ [(flag, value)] }

/-- The arguments with one that is no option. There is only one of them, and it is not empty. -/
def addWord (given : Given) (word : String) : Except Stop Given :=
  if given.words.isEmpty && ! word.isEmpty then .ok { given with words := [word] }
  else .error .usage

/-- Whether an option was given. -/
def has (given : Given) (flag : Flag) : Bool :=
  given.flags.any (·.1 == flag)

/-- The value of an option. -/
def value? (given : Given) (flag : Flag) : Option String :=
  given.flags.lookup flag

end Given

/-- Whether an argument has the form of an option. -/
def isOption (arg : String) : Bool :=
  arg.toList.head? == some '-' && arg != "-"

/-- What short options at the start of an argument mean: those without a value, and the one with
a value that ends them, with the value if it stands in the same argument. -/
def readShort (known : List Flag) (given : Given) :
    List Char → Except Stop (Given × Option (Flag × Option String))
  | [] => .ok (given, none)
  | c :: cs =>
    match known.find? (·.short? == some c) with
    | none => .error .usage
    | some flag =>
      if flag.takesValue then
        let value :=
          match cs with
          | [] => none
          | '=' :: rest => some (String.ofList rest)
          | rest => some (String.ofList rest)
        .ok (given, some (flag, value))
      else do readShort known (← given.addFlag flag "") cs

/-- What a long option means: the option, and its value if it stands in the same argument. -/
def readLong (known : List Flag) (body : List Char) : Except Stop (Flag × Option String) :=
  let (name, rest) := body.span (· != '=')
  match known.find? (·.long == String.ofList name) with
  | none => .error .usage
  | some flag =>
    match rest with
    | [] => .ok (flag, none)
    | _ :: value => if flag.takesValue then .ok (flag, some (String.ofList value)) else .error .usage

/-- The options before a command, and the command with what stands behind it. -/
def readGeneral (given : Given) : List String → Except Stop (Given × String × List String)
  | [] => .error .usage
  | arg :: args =>
    if isOption arg then
      match arg.toList with
      | '-' :: '-' :: body => do
        let (flag, _) ← readLong Flag.general body
        readGeneral (← given.addFlag flag "") args
      | _ :: letters => do
        let (given, _) ← readShort Flag.general given letters
        readGeneral given args
      | [] => .error .usage
    else .ok (given, arg, args)

/-- What the next argument is taken for. -/
inductive Wanted
  /-- Anything. -/
  | any
  /-- The value of an option. -/
  | valueOf (flag : Flag)
  /-- A word, whatever its form. -/
  | word
  deriving DecidableEq, Repr

/-- The arguments of a command. -/
def readArgs (known : List Flag) (wanted : Wanted) (given : Given) :
    List String → Except Stop Given
  | [] =>
    match wanted with
    | .valueOf _ => .error .usage
    | _ => .ok given
  | arg :: args =>
    match wanted with
    | .word => do readArgs known .word (← given.addWord arg) args
    | .valueOf flag =>
      if isOption arg then .error .usage
      else do readArgs known .any (← given.addFlag flag arg) args
    | .any =>
      if isOption arg then
        match arg.toList with
        | ['-', '-'] => readArgs known .word given args
        | '-' :: '-' :: body => do
          let (flag, value?) ← readLong known body
          match value? with
          | some value => readArgs known .any (← given.addFlag flag value) args
          | none =>
            if flag.takesValue then readArgs known (.valueOf flag) given args
            else readArgs known .any (← given.addFlag flag "") args
        | _ :: letters => do
          let (given, open?) ← readShort known given letters
          match open? with
          | none => readArgs known .any given args
          | some (flag, some value) => readArgs known .any (← given.addFlag flag value) args
          | some (flag, none) => readArgs known (.valueOf flag) given args
        | [] => .error .usage
      else do readArgs known .any (← given.addWord arg) args

/-- What is asked of the program. -/
structure Request where
  /-- The command. -/
  verb : Verb
  /-- Where the modules are. -/
  schemas : Path
  /-- The project. -/
  project : Project
  /-- Whether nothing is to be written. -/
  dryRun : Bool
  /-- The format command. -/
  formatCommand : Option String
  deriving DecidableEq, Repr

/-- The request of the arguments of a command. -/
def requestOf (verb : Verb) (given : Given) : Except Stop Request :=
  match given.words with
  | [schemas] =>
    let defaults : Project := {}
    let path (flag : Flag) (default : Path) : Path := ((given.value? flag).map Path.mk).getD default
    .ok {
      verb
      schemas := ⟨schemas⟩
      project := {
        root := path .root defaults.root
        layout := ⟨path .sourceDir defaults.layout.sourceDir⟩
        middleware := path .middleware defaults.middleware }
      dryRun := given.has .dryRun
      formatCommand := given.value? .formatCommand }
  | _ => .error .usage

/-- Whether words behind the word `help` name what is to be explained. -/
def areTopics : List String → Bool
  | [] => true
  | [topic] => topic == "help" || (Verb.ofName? topic).isSome
  | _ => false

/-- What arguments ask for. -/
def readRequest (args : List String) : Except Stop Request := do
  let (_, name, args) ← readGeneral {} args
  match Verb.ofName? name with
  | some verb => requestOf verb (← readArgs (Flag.ofVerb verb) .any {} args)
  | none =>
    if name = "help" && areTopics args then .error .help else .error .usage

end Cli

end ModuleScaffold
