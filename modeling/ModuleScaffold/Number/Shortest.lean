import ModuleScaffold.Number.Double
import ModuleScaffold.Text.Digits

/-!
# The shortest decimal of a double

The reals that round to a double form an interval around it, which holds its ends exactly when
the rank is even. Among the decimals in that interval those with the fewest digits are looked
for, on the grids of one to seventeen digits in turn: a grid meets the interval exactly when one
of the two grid points around the double lies in it. Of two such points the nearer is taken, and
the larger of two equally near.

Magnitudes are compared exactly, as naturals in units of `2 ^ -1075`.
-/

namespace ModuleScaffold

namespace Number

/-- A decimal `digits * 10 ^ exponent`. -/
structure Decimal where
  /-- The digits as a natural number. -/
  digits : Nat
  /-- The power of ten of the last digit. -/
  exponent : Int
  deriving DecidableEq, Repr

/-- The factor that the exponent puts on the digits. -/
def Decimal.up (exponent : Int) : Nat := Nat.pow 10 exponent.toNat

/-- The divisor that the exponent puts on the digits. -/
def Decimal.down (exponent : Int) : Nat := Nat.pow 10 (-exponent).toNat

/-- The magnitude, in units of `2 ^ -1075`, up to the divisor of the exponent. -/
def Decimal.scaled (d : Decimal) : Nat :=
  d.digits * Decimal.up d.exponent * Nat.pow 2 1075

/-- Whether the decimal rounds to the magnitude of the rank. -/
def Decimal.roundsTo (d : Decimal) (rank : Nat) : Bool :=
  let low := (magnitude (rank - 1) + magnitude rank) * Decimal.down d.exponent
  let high := (magnitude rank + magnitude (rank + 1)) * Decimal.down d.exponent
  if rank % 2 = 0 then low ≤ d.scaled && d.scaled ≤ high
  else low < d.scaled && d.scaled < high

/-- The power of ten of the first digit of a positive magnitude. -/
def leadingExponent (rank : Nat) : Int :=
  (Text.decimalDigits (magnitude rank * Nat.pow 10 343 / Nat.pow 2 1074)).length - 344

/-- The decimal of the grid with the given last exponent that rounds to the magnitude. -/
def onGrid (rank : Nat) (exponent : Int) : Option Decimal :=
  let num := magnitude rank * Decimal.down exponent
  let den := Nat.pow 2 1074 * Decimal.up exponent
  let below : Decimal := ⟨num / den, exponent⟩
  let above : Decimal := ⟨num / den + 1, exponent⟩
  match below.roundsTo rank, above.roundsTo rank with
  | true, true => some (if 2 * (num % den) < den then below else above)
  | true, false => some below
  | false, true => some above
  | false, false => none

/-- The first decimal found on the grids of `places` digits and more, at most `fuel` grids. -/
def shortestFrom (rank : Nat) (leading : Int) (places : Nat) : Nat → Decimal
  | 0 => ⟨0, 0⟩
  | fuel + 1 =>
    match onGrid rank (leading - places + 1) with
    | some d => d
    | none => shortestFrom rank leading (places + 1) fuel

/-- A decimal without the zeros at the end of its digits, at most `fuel` of them. -/
def Decimal.trimFrom : Nat → Decimal → Decimal
  | 0, d => d
  | fuel + 1, d =>
    if d.digits % 10 = 0 && d.digits ≠ 0 then trimFrom fuel ⟨d.digits / 10, d.exponent + 1⟩ else d

/-- The decimal with the fewest digits that rounds to the magnitude of the rank. -/
def shortest (rank : Nat) : Decimal :=
  if rank = 0 then ⟨0, 0⟩
  else (shortestFrom rank (leadingExponent rank) 1 17).trimFrom 17

/-! ### Writing -/

/-- The digits of a decimal written without an exponent. -/
def Decimal.positional (d : Decimal) : List Char :=
  let digits := Text.decimalDigits d.digits
  if 0 ≤ d.exponent then digits ++ List.replicate d.exponent.toNat '0'
  else
    let places := (-d.exponent).toNat
    if digits.length ≤ places then
      '0' :: '.' :: (List.replicate (places - digits.length) '0' ++ digits)
    else digits.take (digits.length - places) ++ '.' :: digits.drop (digits.length - places)

/-- A number written with the fewest digits that read back, never with an exponent. -/
def Double.toText : Double → String
  | .nan => "NaN"
  | .infinite false => "inf"
  | .infinite true => "-inf"
  | .finite negative rank =>
    String.ofList ((if negative then ['-'] else []) ++ (shortest rank).positional)

/-- The digits of a decimal with a point or an exponent: positional when the first digit stands
at most sixteen places before the point or at most five after it, and then with a digit after
the point. -/
def Decimal.scientific (d : Decimal) : List Char :=
  let digits := Text.decimalDigits d.digits
  let point : Int := digits.length + d.exponent
  if d.digits = 0 then "0.0".toList
  else if 0 ≤ d.exponent && point ≤ 16 then d.positional ++ ['.', '0']
  else if -5 < point && point ≤ 16 then d.positional
  else
    let power := point - 1
    let tail := digits.drop 1
    digits.take 1 ++ (if tail.isEmpty then [] else '.' :: tail) ++ ['e']
      ++ (if power < 0 then ['-'] else []) ++ Text.decimalDigits power.natAbs

/-- A number written so that it cannot be taken for an integer. -/
def Double.toFloatText : Double → String
  | .finite negative rank =>
    String.ofList ((if negative then ['-'] else []) ++ (shortest rank).scientific)
  | other => other.toText

end Number

end ModuleScaffold
