import ModuleScaffold.Cli.Args
import ModuleScaffold.Cli.Screen
import ModuleScaffold.Generator
import ModuleScaffold.Schema.Load

/-!
# The program

The program reads modules and either generates their files or checks what that would do.
`Cli.run` gives what is printed and how the program ends; it reaches files through its host.
-/

namespace ModuleScaffold

namespace Cli

/-- Where the program runs. -/
structure Host (m : Type → Type) where
  /-- The file system. -/
  files : Files m
  /-- What a path denotes. -/
  find : Path → m (Except OsError Entry)
  /-- The milliseconds since the start, as text. -/
  elapsed : m String

/-- Why the program ends without success. -/
inductive Problem
  /-- The arguments are not understood. -/
  | usage
  /-- There is no module at a path. -/
  | noModules (path : Path)
  /-- Files cannot be generated. -/
  | failed (failure : Failure)
  deriving DecidableEq, Repr

/-- The problem in words. -/
def Problem.message : Problem → String
  | usage => "the arguments are not understood"
  | noModules path => "no module schemas found in " ++ path.text
  | failed failure => failure.message

/-- The code of the problem, if it has one. -/
def Problem.code? : Problem → Option String
  | failed failure => some failure.code
  | _ => none

/-- How the program ends. -/
structure Outcome where
  /-- What it has printed. -/
  output : String := ""
  /-- Why it has no success, if it has none. -/
  problem : Option Problem := none
  deriving DecidableEq, Repr

/-- The status with which the program ends. -/
def Outcome.status (outcome : Outcome) : Nat :=
  match outcome.problem with
  | none => 0
  | some .usage => 2
  | some _ => 1

/-- The outcome after something was printed. -/
def Outcome.after (printed : String) (outcome : Outcome) : Outcome :=
  { outcome with output := printed ++ outcome.output }

/-- The modules that were loaded. -/
def loadedText (loaded : List Schema.Loaded) : String :=
  String.join (loaded.map fun l => plain (l.content.name ++ " " ++ l.path.text))

/-- What was left out of the middleware file while it was written. -/
def droppedText (path : Path) (warnings : List Source.Warning) : String :=
  if warnings.isEmpty then ""
  else warning (Text.decimal warnings.length
      ++ " fragment(s) of the middleware file were not understood and were dropped")
    ++ String.join (warnings.map fun w => plain (w.text path)) ++ blankLine

/-- What is printed after files have been generated. -/
def summaryText (request : Request) (summary : Summary) (elapsed : String) : String :=
  String.join (summary.written.map (fileLine request.dryRun)) ++ blankLine
    ++ droppedText request.project.middlewareFile summary.warnings
    ++ boxHeader (if request.dryRun then "DRY RUN" else "GENERATED")
    ++ boxLine ""
    ++ boxLine ("   " ++ counts summary.modules summary.written.length summary.routes)
    ++ boxLine ("   " ++ Text.decimal summary.unchanged ++ " file(s) already up to date")
    ++ boxLine "" ++ boxFooter ++ blankLine ++ timing elapsed ++ blankLine

/-- What is printed after a check. -/
def forecastText (request : Request) (forecast : Forecast) : String :=
  String.join (forecast.warnings.map fun w => warning (w.text request.project.middlewareFile))
    ++ (if forecast.warnings.isEmpty then lookingGood else "") ++ blankLine
    ++ info (counts forecast.modules forecast.files forecast.routes) ++ blankLine

variable {m : Type → Type} [Monad m]

/-- Generates the files of modules, or only finds out what a dry run would write. -/
def generate (host : Host m) (request : Request) (formatter : Formatter)
    (modules : List Schema.Module) : m (Except Failure Summary) :=
  if request.dryRun then do
    let g : Generator (StateT Pending m) :=
      { project := request.project, files := .dryRun host.files, formatter }
    let (result, _) ← (g.generate modules).run.run {}
    return result
  else
    let g : Generator m := { project := request.project, files := host.files, formatter }
    (g.generate modules).run

/-- The command that generates files. -/
def runGenerate (host : Host m) (request : Request) (modules : List Schema.Module) :
    m Outcome := do
  match Formatter.ofCommand? request.formatCommand with
  | .error problem => return { problem := some (.failed (.format problem)) }
  | .ok formatter =>
    match ← generate host request formatter modules with
    | .error failure => return { output := failureHeader, problem := some (.failed failure) }
    | .ok summary => return { output := summaryText request summary (← host.elapsed) }

/-- The command that checks. -/
def runCheck (host : Host m) (request : Request) (modules : List Schema.Module) : m Outcome := do
  let g : Generator m := { project := request.project, files := host.files }
  match ← (g.check modules).run with
  | .error failure => return { output := failureHeader, problem := some (.failed failure) }
  | .ok forecast => return { output := forecastText request forecast }

/-- A request. -/
def perform (host : Host m) (request : Request) : m Outcome := do
  match Schema.load request.schemas (← host.find request.schemas) with
  | .error failure => return { problem := some (.failed failure) }
  | .ok [] => return { problem := some (.noModules request.schemas) }
  | .ok loaded =>
    let modules := loaded.map (·.content)
    let outcome ← match request.verb with
      | .generate => runGenerate host request modules
      | .check => runCheck host request modules
    return outcome.after (loadedText loaded)

/-- The program with its arguments. -/
def run (host : Host m) (args : List String) : m Outcome :=
  match readRequest args with
  | .ok request => perform host request
  | .error .usage => return { problem := some .usage }
  | .error .help => return {}

end Cli

end ModuleScaffold
