/-! Binary floating-point numbers of 64 bits, and the one nearest to a decimal. -/
namespace DollarScript

/-- The number of finite magnitudes. -/
def Binary64.ranks : Nat := 2047 * Nat.pow 2 52

/-- A finite number is its sign and the rank of its magnitude among all finite magnitudes; rank 0
is zero. Numbers that are not one do not differ among themselves. -/
inductive Binary64 where
  | finite (negative : Bool) (rank : Fin Binary64.ranks)
  | infinite (negative : Bool)
  | nan
  deriving DecidableEq

/-- The value `digits * 10 ^ exponent`. -/
structure Decimal where
  digits : Nat
  exponent : Int
  deriving DecidableEq, Repr

namespace Decimal

/-- Numerator of the value as a fraction. -/
def num (d : Decimal) : Nat := d.digits * Nat.pow 10 d.exponent.toNat

/-- Denominator of the value as a fraction. -/
def den (d : Decimal) : Nat := Nat.pow 10 (-d.exponent).toNat

end Decimal

namespace Binary64

/-- Magnitudes are counted in units of the least positive one, `2 ^ -1074`. -/
def unitsPerOne : Nat := Nat.pow 2 1074

/-- Ranks from `2 ^ 52` on come in blocks of `2 ^ 52`; each block doubles the distance between
neighbours. -/
def units (rank : Nat) : Nat :=
  if rank < Nat.pow 2 52 then rank
  else (Nat.pow 2 52 + rank % Nat.pow 2 52) * Nat.pow 2 (rank / Nat.pow 2 52 - 1)

/-- The nearest integer to `a / b`; of two equally near, the even one. -/
def roundHalfEven (a b : Nat) : Nat :=
  let q := a / b
  let r := a % b
  if 2 * r < b then q else if b < 2 * r then q + 1 else if q % 2 = 0 then q else q + 1

/-- The rank nearest to `num / den`. A mantissa that rounds up to the next power of two carries
into the next block by itself. -/
def nearestRank (num den : Nat) : Nat :=
  let u := num * unitsPerOne
  let scale := Nat.log2 (u / den) - 52
  scale * Nat.pow 2 52 + roundHalfEven u (den * Nat.pow 2 scale)

/-- Decimals far outside the range of finite numbers are settled by their size alone. -/
def rankOfDecimal (d : Decimal) : Nat :=
  let size : Int := (Nat.toDigits 10 d.digits).length + d.exponent
  if d.digits = 0 ∨ size < -400 then 0
  else if 400 < size then ranks
  else nearestRank d.num d.den

def ofDecimal (negative : Bool) (d : Decimal) : Binary64 :=
  let rank := rankOfDecimal d
  if h : rank < ranks then .finite negative ⟨rank, h⟩ else .infinite negative

end Binary64

end DollarScript
