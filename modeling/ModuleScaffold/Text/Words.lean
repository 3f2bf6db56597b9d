import ModuleScaffold.Text.Cluster
import ModuleScaffold.Text.LetterCase

/-!
# Names as sequences of words

A name such as `WiperKit`, `wiper_kit` or `wiper kit` is a sequence of words, and a *style* is a
way to write the sequence: `wiperKit`, `wiper-kit`, `Wiper Kit`. Words end at an underscore, a
hyphen or a space, which are dropped, and between two signs of which the second starts a new
word: a capital after a small letter, a change between letters and digits, the last capital of a
run of capitals before a small letter. Two separators in a row leave an empty word between them,
which is kept.
-/

namespace ModuleScaffold

namespace Text

/-! ### Where a word ends -/

/-- A sign that separates words and belongs to none. -/
def isSeparator (sign : List Char) : Bool :=
  sign == ['_'] || sign == ['-'] || sign == [' ']

/-- A sign that differs from its small form and is its own capital form. -/
def isCapital (sign : List Char) : Bool :=
  upper sign != lower sign && sign == upper sign

/-- A sign that differs from its capital form and is its own small form. -/
def isSmall (sign : List Char) : Bool :=
  upper sign != lower sign && sign == lower sign

/-- A decimal digit. -/
def isDigitSign : List Char → Bool
  | [c] => c.isDigit
  | _ => false

/-- Whether a word ends after `sign`, given the signs that follow it. -/
def endsWord (sign : List Char) : List (List Char) → Bool
  | [] => false
  | next :: rest =>
    (isSmall sign && isCapital next) || (isSmall sign && isDigitSign next)
      || (isCapital sign && isDigitSign next) || (isDigitSign sign && isSmall next)
      || (isDigitSign sign && isCapital next)
      || (isCapital sign && isCapital next && (rest.head?.map isSmall).getD false)

/-- The words of a name given as signs, after the letters `word` of the word under way. -/
def wordsFrom (word : List Char) : List (List Char) → List (List Char)
  | [] => [word]
  | sign :: signs =>
    if isSeparator sign then word :: wordsFrom [] signs
    else if endsWord sign signs then (word ++ sign) :: wordsFrom [] signs
    else wordsFrom (word ++ sign) signs

/-- The words of a name; an empty name has none. -/
def nameWords (name : String) : List (List Char) :=
  if name.isEmpty then [] else wordsFrom [] (clusters name.toList)

/-! ### Writing the words -/

/-- The ways to write a name. -/
inductive Style
  /-- `WiperKit` -/
  | pascal
  /-- `wiperKit` -/
  | camel
  /-- `wiper_kit` -/
  | snake
  /-- `wiper-kit` -/
  | kebab
  /-- `Wiper Kit` -/
  | title
  deriving DecidableEq, Repr

/-- The styles in the order in which they are listed. -/
def Style.all : List Style :=
  [.pascal, .camel, .snake, .kebab, .title]

/-- What stands between two words. -/
def Style.separator : Style → String
  | .pascal | .camel => ""
  | .snake => "_"
  | .kebab => "-"
  | .title => " "

/-- The words in the letters of the style. -/
def Style.letters : Style → List (List Char) → List (List Char)
  | .pascal, ws | .title, ws => ws.map capitalized
  | .camel, [] => []
  | .camel, w :: ws => lower w :: ws.map capitalized
  | .snake, ws | .kebab, ws => ws.map lower

/-- A name written in a style. -/
def Style.apply (style : Style) (name : String) : String :=
  style.separator.intercalate ((style.letters (nameWords name)).map String.ofList)

/-- A name in capitals. -/
def capitalText (name : String) : String :=
  String.ofList (upper name.toList)

end Text

end ModuleScaffold
