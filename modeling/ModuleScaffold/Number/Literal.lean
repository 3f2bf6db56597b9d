import ModuleScaffold.Number.Nearest

/-!
# Number texts

Two notations are read. A *decimal text* has an optional sign, digits with an optional point and
an optional exponent, or one of the words for infinity and not a number. A *number literal* may
separate digits by underscores, have a radix mark, and end in the letter `n`; a literal with a
radix mark must fit into 64 bits.
-/

namespace ModuleScaffold

namespace Number

/-- A text in small ASCII letters. -/
def smallAscii (cs : List Char) : List Char :=
  cs.map Char.toLower

/-- The sign in front of a text, and the rest. -/
def splitSign : List Char → Bool × List Char
  | '-' :: cs => (true, cs)
  | '+' :: cs => (false, cs)
  | cs => (false, cs)

/-- An exponent: an optional sign and at least one digit. -/
def readExponent (cs : List Char) : Option Int :=
  let (negative, digits) := splitSign cs
  match Text.readNumber 10 digits with
  | some n => some (if negative then -(n : Int) else n)
  | none => none

/-- Digits with an optional point and an optional exponent. -/
def readMagnitude (negative : Bool) (cs : List Char) : Option Double :=
  let (whole, rest) := cs.span Char.isDigit
  let (fraction, rest) := match rest with
    | '.' :: rest => rest.span Char.isDigit
    | rest => ([], rest)
  match Text.readNumber 10 (whole ++ fraction) with
  | none => none
  | some digits =>
    match rest with
    | [] => some (.ofDecimal negative digits (-(fraction.length : Int)))
    | e :: power =>
      if e = 'e' || e = 'E' then
        match readExponent power with
        | some x => some (.ofDecimal negative digits (x - fraction.length))
        | none => none
      else none

/-- The double written by a decimal text. -/
def Double.ofChars (cs : List Char) : Option Double :=
  let (negative, body) := splitSign cs
  let word := smallAscii body
  if word = "inf".toList || word = "infinity".toList then some (.infinite negative)
  else if word = "nan".toList then some .nan
  else readMagnitude negative body

/-- The double written by a decimal text. -/
def Double.ofText (text : String) : Option Double :=
  Double.ofChars text.toList

/-- The double nearest to digits of a radix, if they fit into 64 bits. -/
def readRadix (radix : Nat) (digits : List Char) : Option Double :=
  match Text.readNumber radix digits with
  | some n => if n < Nat.pow 2 64 then some (.ofNat n) else none
  | none => none

/-- The double written by a number literal. -/
def Double.ofLiteral (literal : List Char) : Option Double :=
  match smallAscii (literal.filter (· != '_')) with
  | '0' :: 'x' :: digits => readRadix 16 digits
  | '0' :: 'o' :: digits => readRadix 8 digits
  | '0' :: 'b' :: digits => readRadix 2 digits
  | cs => Double.ofChars (cs.reverse.dropWhile (· == 'n')).reverse

end Number

end ModuleScaffold
