import ModuleScaffold.Text.Alphabetic
import ModuleScaffold.Text.Blank

/-!
# Identifiers

The names of bindings: a letter, underscore or dollar sign followed by any number of letters,
digits, underscores and dollar signs. A path is a sequence of identifiers joined by points.

`mentions` says whether a text uses a name: the occurrences of the name are taken from left to
right without overlap, and one of them has no ASCII word character on either side.
-/

namespace ModuleScaffold

namespace Text

/-- A character that may begin an identifier. -/
def isWordStart (c : Char) : Bool :=
  isAlphabetic c || c == '_' || c == '$'

/-- A character that may stand inside an identifier. -/
def isWordPart (c : Char) : Bool :=
  isAlphanumeric c || c == '_' || c == '$'

/-- Whether the characters are an identifier. -/
def isIdentifierChars : List Char → Bool
  | [] => false
  | c :: cs => isWordStart c && cs.all isWordPart

/-- Whether the text is an identifier. -/
def isIdentifier (text : String) : Bool :=
  isIdentifierChars text.toList

/-- Whether the text is a sequence of identifiers joined by points. -/
def isIdentifierPath (text : String) : Bool :=
  (fields (· == '.') text.toList).all isIdentifierChars

/-- The first identifier of a path. -/
def pathRoot (path : String) : String :=
  String.ofList (path.toList.takeWhile (· != '.'))

/-! ### Mentions -/

/-- A word character of the ASCII range. -/
def isAsciiWordPart (c : Char) : Bool :=
  c.isAlphanum || c == '_' || c == '$'

/-- Whether a name may end or begin beside the character, if there is one. -/
def isBoundary : Option Char → Bool
  | some c => ! isAsciiWordPart c
  | none => true

/-- Whether `name` occurs between boundaries in the text that follows `before`; the first `skip`
characters belong to an occurrence already seen. -/
def mentionsFrom (name : List Char) (before : Option Char) (skip : Nat) : List Char → Bool
  | [] => false
  | c :: cs =>
    match skip with
    | skip + 1 => mentionsFrom name (some c) skip cs
    | 0 =>
      if name.isPrefixOf (c :: cs) then
        (isBoundary before && isBoundary ((c :: cs).drop name.length).head?)
          || mentionsFrom name (some c) (name.length - 1) cs
      else mentionsFrom name (some c) 0 cs

/-- Whether the text uses the name. -/
def mentions (text name : String) : Bool :=
  ! name.isEmpty && mentionsFrom name.toList none 0 text.toList

/-! ### Words -/

/-- The word at the start of a text, after blanks, and the text behind it. -/
def splitWord (text : List Char) : List Char × List Char :=
  (text.dropWhile isBlank).span isWordPart

/-- The identifiers among the words of a text. -/
def identifiersIn (text : List Char) : List (List Char) :=
  (fields (! isWordPart ·) text).filter isIdentifierChars

end Text

end ModuleScaffold
