/-
# Doubles

The finite numbers of double precision.  The magnitudes among them form a row that begins with
zero, and a double is known by its sign and by its place in this row.  From a place follow a
mantissa and a power of two (`Double.mantissa`, `Double.exponent`).  Between any two places there
is a point from which on numbers belong to the further one: `Double.nearest?` finds the double of
a fraction, and `Double.readsBack` says which fractions belong to a double.
-/

namespace RequestCache

/-- How many finite magnitudes there are in double precision. -/
def doubleCount : Nat := 2047 * 0x10000000000000

/-- A finite number in double precision. -/
structure Double where
  /-- Is the sign set? -/
  isNegative : Bool
  /-- The place among the magnitudes. -/
  rank : Nat
  rank_lt : rank < doubleCount
deriving DecidableEq, Repr

namespace Double

/-- The mantissa; from its fifty-third bit on the exponent grows instead of it. -/
def mantissa (d : Double) : Nat :=
  if d.rank < 0x10000000000000 then d.rank else 0x10000000000000 + d.rank % 0x10000000000000

/-- The power of two that the mantissa is multiplied by. -/
def exponent (d : Double) : Int :=
  if d.rank < 0x10000000000000 then -1074 else (d.rank / 0x10000000000000 : Nat) - 1075

/-- Is the double zero, of either sign? -/
def isZero (d : Double) : Bool := d.rank = 0

/-- The same magnitude with a sign. -/
def withSign (isNegative : Bool) (d : Double) : Double := { d with isNegative }

/-- The magnitude as a numerator and a denominator. -/
def ratio (d : Double) : Nat × Nat :=
  (d.mantissa * Nat.pow 2 d.exponent.toNat, Nat.pow 2 (-d.exponent).toNat)

/-- Is the neighbour towards zero only half as far away as the other one? -/
def isNarrow (d : Double) : Bool := d.rank % 0x10000000000000 = 0 && 0x20000000000000 ≤ d.rank

/-- Does the magnitude of the double lie nearest to `digits` times a power of ten?  A number
half-way between two doubles belongs to the one with the even mantissa. -/
def readsBack (d : Double) (digits : Nat) (power : Int) : Bool :=
  let (num, den) := d.ratio
  let unit := Nat.pow 2 d.exponent.toNat
  let four := 4 * digits * Nat.pow 10 power.toNat * den
  let scale := Nat.pow 10 (-power).toNat
  let lower := (4 * num - (if d.isNarrow then unit else 2 * unit)) * scale
  let upper := (4 * num + 2 * unit) * scale
  if d.mantissa % 2 = 0 then lower ≤ four && four ≤ upper else lower < four && four < upper

/-- The double of a place, if there is one. -/
def ofRank? (rank : Nat) : Option Double :=
  if h : rank < doubleCount then some ⟨false, rank, h⟩ else none

/-- The integer nearest to a fraction, of two equally near ones the even one. -/
def roundRatio (num den : Nat) : Nat :=
  let low := num / den
  let rest := 2 * (num % den)
  if rest < den then low
  else if den < rest then low + 1
  else low + low % 2

/-- The double nearest to a fraction, unless the fraction is too great.  The exponent is the
least one at which the mantissa has no more than fifty-three bits; a mantissa that is rounded up
to one bit more leads to the next place all the same. -/
def nearest? (num den : Nat) : Option Double :=
  let guess := max (-1074) ((num.log2 : Int) - den.log2 - 53)
  let scaled (e : Int) : Nat × Nat := (num * Nat.pow 2 (-e).toNat, den * Nat.pow 2 e.toNat)
  let mantissaAt (e : Int) : Nat := roundRatio (scaled e).1 (scaled e).2
  let e := if (scaled guess).1 / (scaled guess).2 < 0x20000000000000 then guess else guess + 1
  if num = 0 then ofRank? 0 else ofRank? ((e + 1074).toNat * 0x10000000000000 + mantissaAt e)

/-- The double nearest to a product of magnitudes, unless the product is too great. -/
def times? (d e : Double) : Option Double :=
  nearest? (d.ratio.1 * e.ratio.1) (d.ratio.2 * e.ratio.2)

/-- The double nearest to a quotient of magnitudes, unless the quotient is too great. -/
def over? (d e : Double) : Option Double :=
  nearest? (d.ratio.1 * e.ratio.2) (d.ratio.2 * e.ratio.1)

end Double

end RequestCache
