/-!
# Binary floating point of 64 bits

A finite number of the format is a sign and a magnitude `mantissa * 2 ^ exponent` whose mantissa has
at most 53 bits and whose exponent is at least `-1074`. `Magnitude.nearest` rounds a quotient of
natural numbers to the nearest magnitude, of two equally near ones to the one with the even
mantissa; product and quotient of magnitudes are that rounding of the exact result.
-/

namespace EntityModel

/-- A magnitude `mantissa * 2 ^ exponent` of the 64-bit format. -/
structure Magnitude where
  mantissa : Nat
  exponent : Int
  deriving DecidableEq, Repr, Inhabited

namespace Magnitude

/-- The number of bits of a mantissa. -/
def precision : Nat := 53

/-- The least exponent, that of the subnormal numbers. -/
def leastExponent : Int := -1074

/-- The greatest exponent of a finite number. -/
def greatestExponent : Int := 971

/-- The magnitude of zero. -/
def zero : Magnitude := ⟨0, leastExponent⟩

/-- Whether the magnitude is that of zero. -/
def isZero (x : Magnitude) : Bool := x.mantissa == 0

/-- The quotient `num / den` rounded to a whole number, a half to the even neighbour. -/
def roundHalfEven (num den : Nat) : Nat :=
  let q := num / den
  let r := num % den
  if 2 * r < den then q
  else if 2 * r = den then q + q % 2
  else q + 1

/-- `num * 2 ^ -e` as a quotient of natural numbers over `den`. -/
def scaled (num den : Nat) (e : Int) : Nat × Nat :=
  (num * Nat.pow 2 (-e).toNat, den * Nat.pow 2 e.toNat)

/-- The exponent at which the quotient `num / den` has a mantissa of full precision. -/
def exponentFor (num den : Nat) : Int :=
  let e := (num.log2 : Int) - den.log2 - precision
  let (n, d) := scaled num den e
  max leastExponent (if n / d < Nat.pow 2 precision then e else e + 1)

/-- The magnitude nearest to `num / den`; none where that is beyond the finite numbers. -/
def nearest (num den : Nat) : Option Magnitude :=
  if num = 0 then some zero
  else
    let e := exponentFor num den
    let (n, d) := scaled num den e
    let m := roundHalfEven n d
    let x : Magnitude := if m < Nat.pow 2 precision then ⟨m, e⟩ else ⟨m / 2, e + 1⟩
    if x.exponent ≤ greatestExponent then some x else none

/-- The value of a magnitude as a quotient of natural numbers. -/
def ratio (x : Magnitude) : Nat × Nat :=
  (x.mantissa * Nat.pow 2 x.exponent.toNat, Nat.pow 2 (-x.exponent).toNat)

/-- The rounded product; none where it is beyond the finite numbers. -/
def mul (x y : Magnitude) : Option Magnitude :=
  let (a, b) := x.ratio
  let (c, d) := y.ratio
  nearest (a * c) (b * d)

/-- The rounded quotient; none where it is beyond the finite numbers. -/
def div (x y : Magnitude) : Option Magnitude :=
  let (a, b) := x.ratio
  let (c, d) := y.ratio
  nearest (a * d) (b * c)

/-- The magnitude nearest to the decimal `digits * 10 ^ exponent`. -/
def ofDecimal (digits : Nat) (exponent : Int) : Option Magnitude :=
  nearest (digits * Nat.pow 10 exponent.toNat) (Nat.pow 10 (-exponent).toNat)

end Magnitude

/-- A finite number of the 64-bit format; zero has both signs. -/
structure Binary64 where
  negative : Bool
  magnitude : Magnitude
  deriving DecidableEq, Repr, Inhabited

end EntityModel
