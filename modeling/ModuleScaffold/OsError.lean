/-!
# Errors of the operating system

The reasons for which the operating system refuses to read a file, to write one or to run a
program, with the texts under which they are reported.
-/

namespace ModuleScaffold

/-- An error of the operating system. -/
inductive OsError
  /-- There is no such file. -/
  | notFound
  /-- There is such a file already. -/
  | alreadyThere
  /-- What should be a directory is none. -/
  | notDirectory
  /-- A directory stands where a file is wanted. -/
  | isDirectory
  /-- The name of a file is too long. -/
  | nameTooLong
  /-- The name of a file has the octet zero. -/
  | zeroInName
  /-- A file is no text. -/
  | notText
  /-- Another error, in the words of the system. -/
  | other (text : String)
  deriving DecidableEq, Repr

/-- The text of a numbered error. -/
def OsError.numbered (text : String) (number : String) : String :=
  text ++ " (os error " ++ number ++ ")"

/-- The error in words. -/
def OsError.message : OsError → String
  | notFound => numbered "No such file or directory" "2"
  | alreadyThere => numbered "File exists" "17"
  | notDirectory => numbered "Not a directory" "20"
  | isDirectory => numbered "Is a directory" "21"
  | nameTooLong => numbered "File name too long" "36"
  | zeroInName => "file name contained an unexpected NUL byte"
  | notText => "stream did not contain valid UTF-8"
  | other text => text

end ModuleScaffold
