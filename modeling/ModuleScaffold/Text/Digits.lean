/-!
# Digits

A natural number as a list of digits in a radix up to sixteen, and back. Letters of either case
are read as the digits above nine; the digits written are decimal, or small hexadecimal letters.
-/

namespace ModuleScaffold

namespace Text

/-- The value of a digit: a decimal digit or one of the letters `a` to `f` in either case. -/
def digitValue (c : Char) : Option Nat :=
  if '0' ≤ c ∧ c ≤ '9' then some (c.toNat - '0'.toNat)
  else if 'a' ≤ c ∧ c ≤ 'f' then some (c.toNat - 'a'.toNat + 10)
  else if 'A' ≤ c ∧ c ≤ 'F' then some (c.toNat - 'A'.toNat + 10)
  else none

/-- Whether the character is a digit of the radix. -/
def isDigitOf (radix : Nat) (c : Char) : Bool :=
  match digitValue c with
  | some d => d < radix
  | none => false

/-- The number read from digits that follow those of `high`. -/
def numberFrom (radix : Nat) (high : Nat) : List Char → Option Nat
  | [] => some high
  | c :: cs =>
    match digitValue c with
    | some d => if d < radix then numberFrom radix (high * radix + d) cs else none
    | none => none

/-- The number written by one or more digits. -/
def readNumber (radix : Nat) (cs : List Char) : Option Nat :=
  if cs.isEmpty then none else numberFrom radix 0 cs

/-- The digit of a value below sixteen. -/
def hexDigit (d : Nat) : Char :=
  if d < 10 then Char.ofNat ('0'.toNat + d) else Char.ofNat ('a'.toNat + (d - 10))

/-- The last four hexadecimal digits of a number. -/
def fourHexDigits (n : Nat) : List Char :=
  [hexDigit (n / 4096 % 16), hexDigit (n / 256 % 16), hexDigit (n / 16 % 16), hexDigit (n % 16)]

/-- The decimal digits of a number. -/
def decimalDigits (n : Nat) : List Char :=
  Nat.toDigits 10 n

/-- The decimal text of a number. -/
def decimal (n : Nat) : String :=
  String.ofList (decimalDigits n)

end Text

end ModuleScaffold
