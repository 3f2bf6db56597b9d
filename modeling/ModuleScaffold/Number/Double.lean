/-!
# Double precision numbers

The numbers of the language: not a number, two infinities, and the finite numbers. A finite
number has a sign and a *rank*, its place in the ascending list of magnitudes. The list begins
with zero; `2 ^ 52` neighbours at a time have the same distance, which doubles from one block to
the next after the first two. So the neighbours of a number are those of its rank, and zero has
two signs.
-/

namespace ModuleScaffold

namespace Number

/-- The number of magnitudes in a block of equal distances. -/
def blockSize : Nat := Nat.pow 2 52

/-- The number of finite magnitudes. -/
def rankCount : Nat := 2047 * blockSize

/-- A double precision number. -/
inductive Double
  /-- Not a number. -/
  | nan
  /-- Beyond every finite number. -/
  | infinite (negative : Bool)
  /-- A finite number with the given place in the list of magnitudes. -/
  | finite (negative : Bool) (rank : Fin rankCount)
  deriving DecidableEq, Repr

/-- The magnitude of a rank in units of `2 ^ -1074`. -/
def magnitude (rank : Nat) : Nat :=
  if rank < blockSize then rank
  else (blockSize + rank % blockSize) * Nat.pow 2 (rank / blockSize - 1)

namespace Double

/-- The finite number with the given sign and rank, infinite beyond the last rank. -/
def ofRank (negative : Bool) (rank : Nat) : Double :=
  if h : rank < rankCount then .finite negative ⟨rank, h⟩ else .infinite negative

/-- Whether the number is finite. -/
def isFinite : Double → Bool
  | finite .. => true
  | _ => false

/-- The number with the other sign. -/
def neg : Double → Double
  | nan => nan
  | infinite s => infinite (! s)
  | finite s r => finite (! s) r

/-- Equality of numbers: both zeros are equal, and what is not a number equals nothing. -/
def same : Double → Double → Bool
  | finite s r, finite s' r' => r == r' && (s == s' || r.val == 0)
  | infinite s, infinite s' => s == s'
  | _, _ => false

end Double

end Number

end ModuleScaffold
