import ModuleScaffold.Files
import ModuleScaffold.Text.Octets

/-!
# A disk

A disk is a tree of directories with a working directory in it. Paths are followed from step to
step as the operating system does: a step is only possible from a directory, a single point
stays, two points lead up. Writing a file first makes the directories above it.
-/

namespace ModuleScaffold

/-- What a name in a directory stands for. -/
inductive Entry
  /-- A file with its octets. -/
  | file (octets : Octets)
  /-- A directory with its entries. -/
  | directory (entries : List (String × Entry))

namespace Entry

/-- The entry of the given name in a directory. -/
def child? (entry : Entry) (name : String) : Option Entry :=
  match entry with
  | file _ => none
  | directory entries => entries.lookup name

/-- The entry that names lead to. -/
def at? (entry : Entry) : List String → Option Entry
  | [] => some entry
  | name :: names =>
    match entry.child? name with
    | some child => child.at? names
    | none => none

/-- Entries with one put under a name. -/
def putIn (name : String) (entry : Entry) : List (String × Entry) → List (String × Entry)
  | [] => [(name, entry)]
  | e :: es => if e.1 == name then (name, entry) :: es else e :: putIn name entry es

/-- A directory with an entry put where names lead to, and directories made on the way. -/
def insert : Entry → List String → Entry → Entry
  | _, [], new => new
  | directory entries, name :: names, new =>
    let child := (entries.lookup name).getD (directory [])
    directory (putIn name (child.insert names new) entries)
  | file octets, _ :: _, _ => file octets

/-- The text of an entry. -/
def text (entry : Entry) : Except OsError String :=
  match entry with
  | directory _ => .error .isDirectory
  | file octets =>
    match octets.toText with
    | .ok text => .ok text
    | .error _ => .error .notText

end Entry

/-- A disk. -/
structure Disk where
  /-- The directory at the root. -/
  root : Entry := .directory []
  /-- The names that lead to the working directory. -/
  home : List String := []

namespace Disk

/-- The greatest length of a name, in octets. -/
def longestName : Nat := 255

/-- The steps of a path. -/
def stepsOf (path : Path) : List String :=
  (path.pieces.filter (! ·.isEmpty)).map String.ofList

/-- Whether the path ends in a slash. -/
def endsInSlash (path : Path) : Bool :=
  path.text.toList.getLast? == some '/'

/-- Where a path starts. -/
def start (disk : Disk) (path : Path) : List String :=
  if path.isAbsolute then [] else disk.home

/-- Where steps lead to from a place. -/
def follow (disk : Disk) (place : List String) : List String → Except OsError (List String)
  | [] => .ok place
  | step :: steps =>
    match disk.root.at? place with
    | none => .error .notFound
    | some (.file _) => .error .notDirectory
    | some (.directory _) =>
      if step = "." then disk.follow place steps
      else if step = ".." then disk.follow place.dropLast steps
      else if longestName < step.utf8ByteSize then .error .nameTooLong
      else disk.follow (place ++ [step]) steps

/-- Refuses a path that the operating system cannot be given. -/
def checkPath (path : Path) : Except OsError Unit :=
  if path.text.toList.any (·.toNat = 0) then .error .zeroInName else .ok ()

/-- What a path denotes. -/
def find (disk : Disk) (path : Path) : Except OsError Entry := do
  checkPath path
  if path.text.isEmpty then .error .notFound
  else
    let place ← disk.follow (disk.start path) (stepsOf path)
    match disk.root.at? place with
    | none => .error .notFound
    | some (.file octets) =>
      if endsInSlash path then .error .notDirectory else return .file octets
    | some entry => return entry

/-- Whether a path denotes a directory. -/
def isDirectory (disk : Disk) (path : Path) : Bool :=
  match disk.find path with
  | .ok (.directory _) => true
  | _ => false

/-- The directory in which the last step of a path is made, and that step. -/
def lastStep (disk : Disk) (path : Path) : Except OsError (List String × Option String) := do
  checkPath path
  if path.text.isEmpty then .error .notFound
  else
    let steps := stepsOf path
    let place ← disk.follow (disk.start path) steps.dropLast
    match disk.root.at? place with
    | none => .error .notFound
    | some (.file _) => .error .notDirectory
    | some (.directory _) => return (place, steps.getLast?)

/-- Whether a step stays or leads up. -/
def isPoints (step : String) : Bool :=
  step == "." || step == ".."

/-- The disk with a new directory. -/
def makeDirectory (disk : Disk) (path : Path) : Except OsError Disk := do
  let (place, step?) ← disk.lastStep path
  match step? with
  | none => .error .alreadyThere
  | some step =>
    if isPoints step then .error .alreadyThere
    else if longestName < step.utf8ByteSize then .error .nameTooLong
    else match disk.root.at? (place ++ [step]) with
      | some _ => .error .alreadyThere
      | none => return { disk with root := disk.root.insert (place ++ [step]) (.directory []) }

/-- The disk with a directory and those above it made, in at most `fuel` steps up, and the reason
why one could not be made. -/
def makeDirectories : Nat → Disk → Path → Disk × Option OsError
  | 0, disk, _ => (disk, none)
  | fuel + 1, disk, path =>
    let again (disk : Disk) : Disk × Option OsError :=
      match disk.makeDirectory path with
      | .ok made => (made, none)
      | .error e => (disk, if disk.isDirectory path then none else some e)
    if path.text.isEmpty then (disk, none)
    else match disk.makeDirectory path with
      | .error .notFound =>
        match path.parent with
        | none => (disk, none)
        | some above =>
          match makeDirectories fuel disk above with
          | (disk, some e) => (disk, some e)
          | (disk, none) => again disk
      | _ => again disk

/-- The disk with a file whose directory is there. -/
def writeFile (disk : Disk) (path : Path) (octets : Octets) : Except OsError Disk := do
  let (place, step?) ← disk.lastStep path
  match step? with
  | none => .error .isDirectory
  | some step =>
    if endsInSlash path || isPoints step then .error .isDirectory
    else if longestName < step.utf8ByteSize then .error .nameTooLong
    else match disk.root.at? (place ++ [step]) with
      | some (.directory _) => .error .isDirectory
      | _ => return { disk with root := disk.root.insert (place ++ [step]) (.file octets) }

/-- The text of a file, if there is one. -/
def read (disk : Disk) (path : Path) : Except Failure (Option String) :=
  match disk.find path >>= Entry.text with
  | .ok text => .ok (some text)
  | .error .notFound => .ok none
  | .error e => .error (.unreadable path e.message)

/-- The disk with a file and the directories above it, and the reason why it could not be
written. -/
def write (disk : Disk) (path : Path) (text : String) : Disk × Except Failure Unit :=
  let above := path.parent.getD ⟨""⟩
  match makeDirectories (above.text.length + 1) disk above with
  | (disk, some e) => (disk, .error (.unwritable above e.message))
  | (disk, none) =>
    match disk.writeFile path (Octets.ofText text) with
    | .ok disk => (disk, .ok ())
    | .error e => (disk, .error (.unwritable path e.message))

end Disk

/-- The file system of a disk. -/
def Files.disk : Files (StateM Disk) where
  read path := .mk do return (← get).read path
  write path text := .mk do
    let (disk, result) := (← get).write path text
    set disk
    return result

end ModuleScaffold
