import ModuleScaffold.Number.Double
import ModuleScaffold.Text.Digits

/-!
# Rounding to the nearest double

A quotient of naturals is rounded to the nearest double, a tie to the even rank. Within the block
of the quotient the ranks are equally spaced, so rounding is one division with remainder.

A decimal number is such a quotient; its exponent is bounded first, because everything beyond a
few hundred places rounds to zero or to infinity.
-/

namespace ModuleScaffold

namespace Number

/-- A quotient rounded to the nearest natural, a tie to the even one. -/
def roundHalfEven (num den : Nat) : Nat :=
  let q := num / den
  let twice := 2 * (num % den)
  if twice < den then q
  else if den < twice then q + 1
  else q + q % 2

/-- The rank nearest to the magnitude `num / den`. -/
def nearestRank (num den : Nat) : Nat :=
  let scaled := num * Nat.pow 2 1074
  let block := Nat.log2 (scaled / den) - 52
  roundHalfEven scaled (den * Nat.pow 2 block) + block * blockSize

/-- The double nearest to `num / den` with the given sign. -/
def Double.ofRatio (negative : Bool) (num den : Nat) : Double :=
  .ofRank negative (nearestRank num den)

/-- The double nearest to a natural. -/
def Double.ofNat (n : Nat) : Double :=
  .ofRatio false n 1

/-- The double nearest to `digits * 10 ^ exponent` with the given sign. -/
def Double.ofDecimal (negative : Bool) (digits : Nat) (exponent : Int) : Double :=
  let places : Int := (Text.decimalDigits digits).length
  if digits = 0 then .ofRank negative 0
  else if places + exponent < -400 then .ofRank negative 0
  else if 400 < places + exponent then .infinite negative
  else if 0 ≤ exponent then .ofRatio negative (digits * Nat.pow 10 exponent.toNat) 1
  else .ofRatio negative digits (Nat.pow 10 (-exponent).toNat)

end Number

end ModuleScaffold
