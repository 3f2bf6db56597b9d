import ModuleScaffold.Source.Fragment
import ModuleScaffold.Text.Digits
import ModuleScaffold.Value.Regex

/-!
# Tokens

The tokens of the language, each recognised at the start of what remains: words, punctuation,
quoted texts, numbers and regular expressions. A recogniser gives what remains behind its token.

A number takes digits with single underscores between them, a fraction or an exponent after a
decimal integer without superfluous zeros, and the letter `n` after an integer. Escapes in quoted
texts must be complete.
-/

namespace ModuleScaffold

namespace Source

/-- What remains behind the given characters. -/
def exactly : Chars → Chars → Option Chars
  | [], cs => some cs
  | _ :: _, [] => none
  | p :: ps, c :: cs => if p = c then exactly ps cs else none

/-- What remains behind blanks, comments and the given punctuation. -/
def mark (text : String) (cs : Chars) : Option Chars :=
  exactly text.toList (skip cs)

/-! ### Words -/

/-- The ASCII characters above the space that cannot stand in a word. -/
def punctuation : List Char :=
  [':', ';', '\u0060', '"', '\'', '@', '#', '.', ',', '|', '^', '&', '<', '=', '>', '+', '-', '*', '/',
   '\\', '%', '?', '!', '~', '(', ')', '[', ']', '\x7b', '\x7d']

/-- Whether the character may stand in a word. -/
def inWord (c : Char) : Bool :=
  0x20 < c.toNat && ! isSpace c && ! punctuation.contains c

/-- The number of characters of an escaped character in a word. -/
def wordEscape : Chars → Option Nat
  | '\\' :: 'u' :: '\x7b' :: cs =>
    match cs.span (Text.isDigitOf 16) with
    | (d :: ds, '\x7d' :: _) => some ((d :: ds).length + 4)
    | _ => none
  | '\\' :: 'u' :: a :: b :: c :: d :: _ =>
    if [a, b, c, d].all (Text.isDigitOf 16) then some 6 else none
  | _ => none

/-- The word at the start of the text, and what remains behind it; the first `pending` characters
belong to an escaped character. -/
def wordFrom (pending : Nat) : Chars → Chars × Chars
  | [] => ([], [])
  | c :: cs =>
    match pending with
    | n + 1 =>
      let (w, rest) := wordFrom n cs
      (c :: w, rest)
    | 0 =>
      if inWord c then
        let (w, rest) := wordFrom 0 cs
        (c :: w, rest)
      else match wordEscape (c :: cs) with
        | some n =>
          let (w, rest) := wordFrom (n - 1) cs
          (c :: w, rest)
        | none => ([], c :: cs)

/-- The word at the start of the text, and what remains behind it. -/
def wordHere (cs : Chars) : Option (Chars × Chars) :=
  match wordFrom 0 cs with
  | ([], _) => none
  | (c :: w, rest) => if c.isDigit then none else some (c :: w, rest)

/-- The word behind blanks and comments, and what remains behind it. -/
def word (cs : Chars) : Option (Chars × Chars) :=
  wordHere (skip cs)

/-- What remains behind the given word. -/
def keyword (text : String) (cs : Chars) : Option Chars :=
  match word cs with
  | some (w, rest) => if w = text.toList then some rest else none
  | none => none

/-- What remains behind one of the given words. -/
def keywordAmong (texts : List String) (cs : Chars) : Option Chars :=
  match word cs with
  | some (w, rest) => if texts.contains (String.ofList w) then some rest else none
  | none => none

/-- What remains behind any word. -/
def anyWord (cs : Chars) : Option Chars :=
  (word cs).map (·.2)

/-- What remains behind the name of a private member. -/
def privateName (cs : Chars) : Option Chars :=
  match skip cs with
  | '#' :: rest => (wordHere rest).map (·.2)
  | _ => none

/-! ### Quoted texts -/

/-- The number of characters of the escape at the start of the text. -/
def escapeLength : Chars → Option Nat
  | '\\' :: 'x' :: a :: b :: _ =>
    if Text.isDigitOf 16 a && Text.isDigitOf 16 b then some 4 else none
  | '\\' :: 'u' :: cs => wordEscape ('\\' :: 'u' :: cs)
  | '\\' :: '\r' :: '\n' :: _ => some 3
  | '\\' :: c :: cs =>
    if c = 'x' then none
    else if Text.isDigitOf 8 c then
      some (2 + ((cs.take 2).takeWhile (Text.isDigitOf 8)).length)
    else some 2
  | _ => none

/-- What remains behind the closing quote of a text on one line; the first `pending` characters
belong to an escape. -/
def stringEnd (quote : Char) (pending : Nat) : Chars → Option Chars
  | [] => none
  | c :: cs =>
    match pending with
    | n + 1 => stringEnd quote n cs
    | 0 =>
      if c = quote then some cs
      else if c = '\\' then
        match escapeLength (c :: cs) with
        | some n => stringEnd quote (n - 1) cs
        | none => none
      else if c = '\n' || c = '\r' then none
      else stringEnd quote 0 cs

/-- What remains behind a text in single or double quotes. -/
def stringHere (cs : Chars) : Option Chars :=
  match cs with
  | c :: rest => if c = '"' || c = '\'' then stringEnd c 0 rest else none
  | [] => none

/-- What remains behind blanks, comments and a text in single or double quotes. -/
def string (cs : Chars) : Option Chars :=
  stringHere (skip cs)

/-! ### Numbers -/

/-- What remains behind digits of a radix, each but the first possibly behind an underscore. -/
def digitsEnd (radix : Nat) : Chars → Chars
  | '_' :: c :: cs => if Text.isDigitOf radix c then digitsEnd radix cs else '_' :: c :: cs
  | c :: cs => if Text.isDigitOf radix c then digitsEnd radix cs else c :: cs
  | [] => []

/-- What remains behind one or more digits of a radix. -/
def digits (radix : Nat) : Chars → Option Chars
  | c :: cs => if Text.isDigitOf radix c then some (digitsEnd radix cs) else none
  | [] => none

/-- What remains behind an exponent, or the text itself if there is none. -/
def exponentEnd (cs : Chars) : Chars :=
  match cs with
  | e :: rest =>
    if e = 'e' || e = 'E' then
      let unsigned := match rest with
        | '+' :: rest | '-' :: rest => rest
        | rest => rest
      (digits 10 unsigned).getD cs
    else cs
  | [] => cs

/-- What remains behind the letter that marks a big integer, if it is there. -/
def bigEnd : Chars → Chars
  | 'n' :: cs => cs
  | cs => cs

/-- Whether digits are a decimal integer that may have a fraction or an exponent: zero, or no
more than one zero in front of another digit. -/
def mayContinue : Chars → Bool
  | ['0'] => true
  | '0' :: c :: _ => c != '0' && c != '_'
  | _ :: _ => true
  | [] => false

/-- What remains behind a number that starts with a decimal digit. -/
def decimalEnd (cs afterDigits : Chars) : Chars :=
  if mayContinue (upTo cs afterDigits) then
    match afterDigits with
    | '.' :: rest => exponentEnd ((digits 10 rest).getD rest)
    | rest =>
      let behind := exponentEnd rest
      if behind.length = rest.length then bigEnd rest else behind
  else bigEnd afterDigits

/-- What remains behind a number. -/
def numberHere (cs : Chars) : Option Chars :=
  let plain := match cs with
    | '.' :: rest => (digits 10 rest).map exponentEnd
    | _ => (digits 10 cs).map (decimalEnd cs)
  let marked (radix : Nat) (rest : Chars) : Option Chars :=
    match digits radix rest with
    | some behind => some (bigEnd behind)
    | none => plain
  match cs with
  | '0' :: 'x' :: rest | '0' :: 'X' :: rest => marked 16 rest
  | '0' :: 'o' :: rest | '0' :: 'O' :: rest => marked 8 rest
  | '0' :: 'b' :: rest | '0' :: 'B' :: rest => marked 2 rest
  | _ => plain

/-! ### Regular expressions -/

/-- The body of a regular expression from some place on, and what remains behind its closing
slash. A body does not span lines. -/
def bodyFrom (place : Regex.Place) : Chars → Option (Chars × Chars)
  | [] => none
  | c :: cs =>
    if c = '\n' then none
    else if c = '/' && place.isOpen then some ([], cs)
    else match bodyFrom (place.next c) cs with
      | some (body, rest) => some (c :: body, rest)
      | none => none

/-- Whether the character is a flag of a regular expression. -/
def isFlag (c : Char) : Bool :=
  'a' ≤ c && c ≤ 'z'

/-- The parts of a regular expression. -/
structure RegexToken where
  /-- The text between the slashes. -/
  pattern : Chars
  /-- The letters behind the closing slash. -/
  flags : Chars
  deriving DecidableEq, Repr

/-- The regular expression at the start of the text, and what remains behind it. Its body is not
empty. -/
def regexHere : Chars → Option (RegexToken × Chars)
  | '/' :: cs =>
    match bodyFrom .start cs with
    | some ([], _) | none => none
    | some (body, rest) =>
      let (flags, rest) := rest.span isFlag
      some (⟨body, flags⟩, rest)
  | _ => none

end Source

end ModuleScaffold
