import ModuleScaffold.Text.Blank
import ModuleScaffold.Text.Digits

/-!
# Bodies of regular expressions

A regular expression stands between two slashes. A slash in its body must therefore be escaped,
unless it stands in a character class; the body may not begin with a star, which would open a
comment, nor span lines, nor leave an escape or a class open.

`Regex.escapeSlashes` makes a pattern fit between slashes where that is a matter of slashes only,
and `Regex.problem?` finds the first reason why a body does not read back.
-/

namespace ModuleScaffold

namespace Regex

/-- Where the scan of a body stands: behind a backslash, and inside a character class. -/
structure Place where
  /-- The next character is escaped. -/
  escaped : Bool
  /-- A character class is open. -/
  inClass : Bool
  deriving DecidableEq, Repr

/-- The place at the start of a body. -/
def Place.start : Place := ⟨false, false⟩

/-- The place behind a character. -/
def Place.next (place : Place) (c : Char) : Place :=
  if place.escaped then ⟨false, place.inClass⟩
  else if c = '\\' then ⟨true, place.inClass⟩
  else if c = '[' then ⟨false, true⟩
  else if c = ']' then ⟨false, false⟩
  else place

/-- Whether a slash at the place would end the body. -/
def Place.isOpen (place : Place) : Bool :=
  ! place.escaped && ! place.inClass

/-- A body from some place on, with a backslash before every slash that would end it. -/
def escapeFrom (place : Place) : List Char → List Char
  | [] => []
  | c :: cs =>
    if c = '/' && place.isOpen then '\\' :: '/' :: escapeFrom place cs
    else c :: escapeFrom (place.next c) cs

/-- A pattern with a backslash before every slash that would end it. -/
def escapeSlashes (pattern : String) : String :=
  String.ofList (escapeFrom .start pattern.toList)

/-- Why a text cannot stand between slashes. -/
inductive Problem
  /-- There is no pattern, and two slashes alone open a comment. -/
  | empty
  /-- The pattern begins with a star. -/
  | leadingStar
  /-- The pattern spans lines. -/
  | severalLines
  /-- A slash ends the body early; it stands behind the given number of bytes. -/
  | bareSlash (offset : Nat)
  /-- The last character escapes what follows the body. -/
  | loneBackslash
  /-- A character class is not closed. -/
  | openClass
  /-- A flag is unknown or repeated. -/
  | badFlags (flags : String)
  deriving DecidableEq, Repr

/-- The reason in words. -/
def Problem.detail : Problem → String
  | empty => "empty pattern"
  | leadingStar => "pattern cannot start with '*'"
  | severalLines => "pattern spans several lines"
  | bareSlash offset => "unescaped '/' at offset " ++ Text.decimal offset
  | loneBackslash => "pattern ends with a lone backslash"
  | openClass => "unterminated character class"
  | badFlags flags => "invalid flags '" ++ flags ++ "'"

/-- A character that ends a line of source text. -/
def isLineEnd (c : Char) : Bool :=
  c == '\n' || c == '\r' || c.toNat == 0x2028 || c.toNat == 0x2029

/-- The first problem of a body from some place on, behind `offset` bytes. -/
def bodyProblemFrom (place : Place) (offset : Nat) : List Char → Option Problem
  | [] =>
    if place.escaped then some .loneBackslash
    else if place.inClass then some .openClass
    else none
  | c :: cs =>
    if isLineEnd c then some .severalLines
    else if c = '/' && place.isOpen then some (.bareSlash offset)
    else bodyProblemFrom (place.next c) (offset + c.utf8Size) cs

/-- The first problem of a body that is not empty. -/
def bodyProblem? (body : List Char) : Option Problem :=
  if body.head? = some '*' then some .leadingStar else bodyProblemFrom .start 0 body

/-- The flags that a regular expression may carry. -/
def flagLetters : List Char := ['d', 'g', 'i', 'm', 's', 'u', 'y', 'v']

/-- Whether every flag is known and none is repeated. -/
def validFlags : List Char → Bool
  | [] => true
  | c :: cs => flagLetters.contains c && ! cs.contains c && validFlags cs

/-- The first reason why a pattern with flags does not read back. -/
def problem? (pattern flags : String) : Option Problem :=
  if pattern.isEmpty then some .empty
  else match bodyProblem? pattern.toList with
    | some p => some p
    | none => if validFlags flags.toList then none else some (.badFlags flags)

end Regex

end ModuleScaffold
