import ModuleScaffold.Command.Shell
import ModuleScaffold.OsError
import ModuleScaffold.Path

/-!
# Formatters

A formatter changes the layout of a generated text before it is written. It is given the file for
which the text is meant. A *format command* is a formatter that runs a program: the program reads
the text, writes the formatted one and is told the file by the option `--stdin-filepath`.
-/

namespace ModuleScaffold

/-- Why a text cannot be formatted. -/
inductive FormatProblem
  /-- The format command names no program. -/
  | noProgram
  /-- The program failed on the text for a file. -/
  | failed (program : String) (path : Path) (reason : String)
  deriving DecidableEq, Repr

/-- The problem in words. -/
def FormatProblem.message : FormatProblem → String
  | noProgram => "empty format command"
  | failed program path reason => program ++ " (" ++ path.text ++ "): " ++ reason

/-- A formatter, which is given the file and the text. -/
abbrev Formatter := Path → String → Except FormatProblem String

/-- The formatter that leaves every text as it is. -/
def Formatter.identity : Formatter :=
  fun _ text => .ok text

/-- A format command. -/
structure FormatCommand where
  /-- The program. -/
  program : String
  /-- Its arguments before those that tell the file. -/
  args : List String
  deriving DecidableEq, Repr

namespace FormatCommand

/-- The format command written as words between blanks. -/
def ofText (command : String) : Except FormatProblem FormatCommand :=
  match (Text.words command.toList).map String.ofList with
  | [] => .error .noProgram
  | program :: args => .ok ⟨program, args⟩

/-- The formatter that runs the command. -/
def formatter (command : FormatCommand) : Formatter := fun path text =>
  let failed (reason : String) : FormatProblem := .failed command.program path reason
  let args := command.args ++ ["--stdin-filepath", path.text]
  match Command.run command.program args (Octets.ofText text) with
  | none => .error (failed OsError.notFound.message)
  | some result =>
    if result.status = 0 then
      match result.output.toText with
      | .ok formatted => .ok formatted
      | .error b => .error (failed b.message)
    else .error (failed (Text.trim (Octets.lenient result.errors)))

end FormatCommand

/-- The formatter of an optional format command. -/
def Formatter.ofCommand? (command : Option String) : Except FormatProblem Formatter :=
  match command with
  | none => .ok .identity
  | some text => do return (← FormatCommand.ofText text).formatter

end ModuleScaffold
