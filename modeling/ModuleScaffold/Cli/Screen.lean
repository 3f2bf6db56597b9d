import ModuleScaffold.Path
import ModuleScaffold.Text.Digits

/-!
# What the program prints

The lines that the program prints: names of files, marked remarks, and a box with a summary.
-/

namespace ModuleScaffold

namespace Cli

/-- A line of text. -/
def line (text : String) : String :=
  text ++ "\n"

/-- An empty line. -/
def blankLine : String := line ""

/-- A character so many times. -/
def repeated (c : Char) (count : Nat) : String :=
  String.ofList (List.replicate count c)

/-- A remark without a mark. -/
def plain (text : String) : String :=
  line ("  " ++ text)

/-- A remark behind a mark. -/
def marked (mark text : String) : String :=
  plain (mark ++ " " ++ text)

/-- A remark on how things are. -/
def info (text : String) : String :=
  marked "◇" text

/-- A remark on what was left out. -/
def warning (text : String) : String :=
  marked "◆" text

/-- The remark that nothing was left out. -/
def lookingGood : String :=
  marked "◉" "Looking good."

/-- The lines above a failure. -/
def failureHeader : String :=
  blankLine ++ warning "Generation failed." ++ blankLine

/-- A text filled up with spaces to a width. -/
def padded (width : Nat) (text : String) : String :=
  text ++ repeated ' ' (width - text.length)

/-- A file that was written, or would be. -/
def fileLine (dryRun : Bool) (path : Path) : String :=
  marked "▸" (padded 11 (if dryRun then "would write" else "wrote") ++ " " ++ path.text)

/-! ### The box -/

/-- The width of a box. -/
def boxWidth : Nat := 55

/-- The upper edge of a box, with its title. -/
def boxHeader (title : String) : String :=
  let title := " " ++ title ++ " "
  plain ("╭─" ++ title ++ repeated '─' (boxWidth - min title.length (boxWidth - 4) - 4) ++ "╮")

/-- A line in a box. -/
def boxLine (text : String) : String :=
  plain ("│ " ++ padded (boxWidth - 2) text ++ "│")

/-- The lower edge of a box. -/
def boxFooter : String :=
  plain ("╰" ++ repeated '─' (boxWidth - 2) ++ "╯")

/-! ### Counts -/

/-- A number of things. -/
def counted (count : Nat) (noun : String) : String :=
  Text.decimal count ++ " " ++ noun ++ (if count = 1 then "" else "s")

/-- Numbers of modules, files and routes. -/
def counts (modules files routes : Nat) : String :=
  " · ".intercalate [counted modules "module", counted files "file", counted routes "route"]

/-- The remark on how long a run took, in milliseconds. -/
def timing (milliseconds : String) : String :=
  info ("Done in " ++ milliseconds ++ "ms")

end Cli

end ModuleScaffold
