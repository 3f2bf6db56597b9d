import ModuleScaffold.Files.Walk

/-!
# Loading modules

Modules are loaded from a file, or from all files below a directory whose extension is `json`, in
the order of their paths. Every module is checked; the first file that cannot be read or holds no
module that is accepted ends the loading.
-/

namespace ModuleScaffold

namespace Schema

/-- A module and the file that holds it. -/
structure Loaded where
  /-- The file. -/
  path : Path
  /-- The module. -/
  content : Module
  deriving DecidableEq, Repr

/-- The checked module that a text describes. -/
def Module.accept (path : Path) (text : String) : Except Failure Module := do
  let m ← (Module.ofText text).mapError (.noModule path)
  m.check.mapError (.schema path)
  return m

/-- The module in a file. -/
def loadFile (found : Entry.Found) : Except Failure Loaded := do
  let text ← (Entry.text (.file found.octets)).mapError fun e => .unreadable found.path e.message
  return ⟨found.path, ← Module.accept found.path text⟩

/-- The modules in files. -/
def loadFiles : List Entry.Found → Except Failure (List Loaded)
  | [] => .ok []
  | f :: fs => do
    let loaded ← loadFile f
    return loaded :: (← loadFiles fs)

/-- The extension of files that hold modules. -/
def fileExtension : String := "json"

/-- Whether a file holds a module, by its extension. -/
def isModuleFile (found : Entry.Found) : Bool :=
  (found.path.fileName?.bind Path.extension?) == some fileExtension

/-- The files that hold modules, given what a path denotes. -/
def moduleFiles (path : Path) : Entry → List Entry.Found
  | .file octets => [⟨path, octets⟩]
  | .directory entries => ((Entry.directory entries).walk path).filter isModuleFile

/-- The modules at a path, given what it denotes. -/
def load (path : Path) (found : Except OsError Entry) : Except Failure (List Loaded) :=
  match found with
  | .ok entry => loadFiles (moduleFiles path entry)
  | .error e => .error (.unreadable path e.message)

end Schema

end ModuleScaffold
