import ModuleScaffold.Cli

/-!
# The executable

The program on the files of the machine. Everything it decides is decided by `Cli.run`; here files
are read and written, the output is printed, and a problem is reported behind it.
-/

namespace ModuleScaffold

namespace Machine

/-- An error as the operating system reports it. -/
def osError : IO.Error → OsError
  | .noFileOrDirectory .. => .notFound
  | .alreadyExists .. => .alreadyThere
  | .inappropriateType _ code details => .other (OsError.numbered details (toString code))
  | .permissionDenied _ code details => .other (OsError.numbered details (toString code))
  | e => .other (toString e)

/-- The text of a file, if there is one. -/
def read (path : Path) : IO (Except Failure (Option String)) := do
  try
    let octets ← IO.FS.readBinFile path.text
    match String.fromUTF8? octets with
    | some text => return .ok (some text)
    | none => return .error (.unreadable path OsError.notText.message)
  catch e =>
    match osError e with
    | .notFound => return .ok none
    | reason => return .error (.unreadable path reason.message)

/-- An action on a path that writes, with the failure that it may have. -/
def attempt (path : Path) (action : IO Unit) : IO (Except Failure Unit) := do
  match ← action.toBaseIO with
  | .ok () => return .ok ()
  | .error e => return .error (.unwritable path (osError e).message)

/-- Makes a file hold a text, in a directory that is made if it is not there. -/
def write (path : Path) (text : String) : IO (Except Failure Unit) := do
  let above := path.parent.getD ⟨""⟩
  let made ← if above.text.isEmpty then pure (.ok ())
    else attempt above (IO.FS.createDirAll above.text)
  match made with
  | .ok () => attempt path (IO.FS.writeFile path.text text)
  | .error failure => return .error failure

/-- The greatest depth to which directories are searched for modules. -/
def searchDepth : Nat := 1000

/-- The entry at a path, down to the given depth; of its files only those that may hold modules are
read. -/
def entryAt (needed : Bool) : Nat → String → IO Entry
  | 0, _ => return .directory []
  | depth + 1, path => do
    let real ← IO.FS.realPath path
    if ← real.isDir then
      let children ← real.readDir
      let entries ← children.toList.mapM fun child => do
        let ending := Path.extension? child.fileName
        let entry ← entryAt (ending == some Schema.fileExtension) depth child.path.toString
        return (child.fileName, entry)
      return .directory entries
    else if needed then return .file (← IO.FS.readBinFile path).toList
    else return .file []

/-- What a path denotes. -/
def find (path : Path) : IO (Except OsError Entry) := do
  try return .ok (← entryAt true searchDepth path.text)
  catch e => return .error (osError e)

/-- The file system of the machine. -/
def files : Files IO where
  read path := .mk (read path)
  write path text := .mk (write path text)

end Machine

end ModuleScaffold

open ModuleScaffold in
/-- Runs the program with its arguments. -/
def main (args : List String) : IO UInt32 := do
  let start ← IO.monoMsNow
  let host : Cli.Host IO := {
    files := Machine.files
    find := Machine.find
    elapsed := do return Text.decimal ((← IO.monoMsNow) - start) }
  let outcome ← Cli.run host args
  IO.print outcome.output
  match outcome.problem with
  | some problem =>
    match problem.code? with
    | some code => IO.eprintln (code ++ "\n\n  " ++ problem.message)
    | none => IO.eprintln problem.message
  | none => pure ()
  return outcome.status.toUInt32
