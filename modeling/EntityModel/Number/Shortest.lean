import EntityModel.Number.Binary64

/-!
# The shortest decimal of a binary number

`Magnitude.shortest` gives the fewest decimal digits that read back as the same number: it looks at
ever finer decimal grids for a point in the interval of reals that round to the number, and takes
the first grid with a hit, of two hits the nearer. `DecimalLayout` says how such digits are written:
up to which size positionally, and with an exponent beyond it.
-/

namespace EntityModel

/-- A decimal number `digits * 10 ^ exponent`. -/
structure Decimal where
  digits : Nat
  exponent : Int
  deriving DecidableEq, Repr, Inhabited

namespace Magnitude

/-- The reals that round to a magnitude, in quarters of its last place over a common denominator. -/
structure RoundingInterval where
  lower : Nat
  centre : Nat
  upper : Nat
  denominator : Nat
  closed : Bool

/-- The interval of a magnitude: half a place to each side, a quarter below a power of two, and the
ends belong to it if the mantissa is even. -/
def interval (x : Magnitude) : RoundingInterval :=
  let unit := Nat.pow 2 (x.exponent - 2).toNat
  let below := if x.mantissa = Nat.pow 2 (precision - 1) ∧ leastExponent < x.exponent then 1 else 2
  { lower := (4 * x.mantissa - below) * unit
    centre := 4 * x.mantissa * unit
    upper := (4 * x.mantissa + 2) * unit
    denominator := Nat.pow 2 (2 - x.exponent).toNat
    closed := x.mantissa % 2 = 0 }

/-- Whether the decimal `digits * 10 ^ exponent` lies in the interval. -/
def RoundingInterval.holds (i : RoundingInterval) (d : Decimal) : Bool :=
  let n := d.digits * Nat.pow 10 d.exponent.toNat * i.denominator
  let scale := Nat.pow 10 (-d.exponent).toNat
  if i.closed then i.lower * scale ≤ n && n ≤ i.upper * scale
  else i.lower * scale < n && n < i.upper * scale

/-- The point of the grid `10 ^ p` in the interval that is nearest to its centre. -/
def RoundingInterval.gridPoint? (i : RoundingInterval) (p : Int) : Option Decimal :=
  let num := i.centre * Nat.pow 10 (-p).toNat
  let den := i.denominator * Nat.pow 10 p.toNat
  let low : Decimal := ⟨num / den, p⟩
  let high : Decimal := ⟨num / den + 1, p⟩
  if i.holds low && (2 * (num % den) ≤ den || !i.holds high) then some low
  else if i.holds high then some high
  else none

/-- The hit on the first of the grids `10 ^ p`, `10 ^ (p - 1)`, … that has one. -/
def RoundingInterval.firstHit (i : RoundingInterval) : Nat → Int → Decimal
  | 0, p => ⟨i.centre * Nat.pow 10 (-p).toNat / (i.denominator * Nat.pow 10 p.toNat), p⟩
  | n + 1, p => (i.gridPoint? p).getD (i.firstHit n (p - 1))

/-- A power of ten above the magnitude, from the number of its bits. -/
def decimalBound (x : Magnitude) : Int :=
  ((x.mantissa.log2 : Int) + x.exponent + 1) * 30103 / 100000 + 1

/-- The fewest decimal digits that read back as the magnitude; of several the nearest to it. -/
def shortest (x : Magnitude) : Decimal :=
  if x.isZero then ⟨0, 0⟩ else x.interval.firstHit 20 x.decimalBound

end Magnitude

/-- Where the written form of a number turns from positional to exponential, counted by the place of
the decimal point relative to the first digit. -/
structure DecimalLayout where
  leastPoint : Option Int
  greatestPoint : Option Int

namespace DecimalLayout

/-- Whether a number whose decimal point stands at `point` is written positionally. -/
def positional (l : DecimalLayout) (point : Int) : Bool :=
  l.leastPoint.all (· ≤ point) && l.greatestPoint.all (point ≤ ·)

/-- Digits with the decimal point after the first `point` of them, zeros added where they are
missing, and at least one digit on each side of the point. -/
def writePositional (ds : List Char) (point : Int) : List Char :=
  if point ≤ 0 then '0' :: '.' :: (List.replicate (-point).toNat '0' ++ ds)
  else
    let whole := ds.take point.toNat
    let fraction := ds.drop point.toNat
    whole ++ List.replicate (point.toNat - whole.length) '0' ++
      '.' :: (if fraction.isEmpty then ['0'] else fraction)

/-- Digits with the point after the first one, and a signed exponent of ten. -/
def writeExponential (ds : List Char) (point : Int) : List Char :=
  let mantissa := match ds with
    | d :: e :: rest => d :: '.' :: e :: rest
    | short => short
  let exponent := point - 1
  mantissa ++ 'e' :: (if exponent < 0 then '-' else '+') :: (toString exponent.natAbs).toList

/-- The written form of a decimal number. -/
def write (l : DecimalLayout) (d : Decimal) : List Char :=
  if d.digits = 0 then ['0', '.', '0']
  else
    let ds := (toString d.digits).toList
    let point := (ds.length : Int) + d.exponent
    if l.positional point then writePositional ds point else writeExponential ds point

end DecimalLayout

/-- The written form of a number: its shortest decimal, laid out, after a sign if it is negative. -/
def Binary64.write (l : DecimalLayout) (x : Binary64) : List Char :=
  let text := l.write x.magnitude.shortest
  if x.negative then '-' :: text else text

end EntityModel
