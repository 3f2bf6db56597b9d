import ModuleScaffold.Number.Nearest

/-!
# Scaling a double by a power of ten

A decimal with many digits can be read in steps: its leading digits are rounded to a double, and
that is multiplied or divided by a rounded power of ten, with each result rounded again. The
result may differ from the nearest double in its last place.
-/

namespace ModuleScaffold

namespace Number

/-- The magnitude of a number in units of `2 ^ -1074`; infinite numbers have none. -/
def Double.units : Double → Option Nat
  | .finite _ rank => some (magnitude rank)
  | _ => none

/-- The largest power of ten that is a double. -/
def largestPower : Nat := 308

/-- The power of ten nearest to `10 ^ exponent`, in units of `2 ^ -1074`. -/
def powerUnits (exponent : Nat) : Nat :=
  magnitude (nearestRank (Nat.pow 10 exponent) 1)

/-- The rank of a rank times a power of ten, rounded. -/
def timesPower (rank exponent : Nat) : Nat :=
  nearestRank (magnitude rank * powerUnits exponent) (Nat.pow 2 1074 * Nat.pow 2 1074)

/-- The rank of a rank divided by a power of ten, rounded. -/
def overPower (rank exponent : Nat) : Nat :=
  nearestRank (magnitude rank) (powerUnits exponent)

/-- The rank of `rank * 10 ^ -places`, at most `fuel` divisions by the largest power first. -/
def overPowers : Nat → Nat → Nat → Nat
  | 0, rank, _ => rank
  | fuel + 1, rank, places =>
    if rank = 0 then 0
    else if places ≤ largestPower then overPower rank places
    else overPowers fuel (overPower rank largestPower) (places - largestPower)

/-- Digits times a power of ten, read in steps; nothing if the result is not finite. -/
def Double.ofSteps (negative : Bool) (digits : Nat) (exponent : Int) : Option Double :=
  let rank := nearestRank digits 1
  let scaled : Option Nat :=
    if exponent < 0 then some (overPowers 4 rank (-exponent).toNat)
    else if exponent.toNat ≤ largestPower then some (timesPower rank exponent.toNat)
    else if rank = 0 then some 0
    else none
  match scaled with
  | some r => if r < rankCount then some (.ofRank negative r) else none
  | none => none

end Number

end ModuleScaffold
