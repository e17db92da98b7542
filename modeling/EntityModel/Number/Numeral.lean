import EntityModel.Number.Basic

/-!
# Decimal numerals

`Numeral.ofChars?` splits a numeral into sign, whole part, fraction and exponent; a whole part of
several digits does not start with zero, and a fraction or an exponent has at least one digit.
`Numeral.number?` is what it denotes: a whole number of 64 bits where there is neither fraction nor
exponent, and else a significand of at most 64 bits scaled by a power of ten in floating point.
-/

namespace EntityModel

/-- The parts of a decimal numeral; digits are given by their values. -/
structure Numeral where
  negative : Bool
  whole : List Nat
  fraction : Option (List Nat)
  exponent : Option (Bool × List Nat)
  deriving DecidableEq, Repr

/-- The value of a decimal digit. -/
def digitValue (c : Char) : Nat := c.toNat - '0'.toNat

/-- The digits in front of a text, by value, and what follows them. -/
def takeDigits (cs : List Char) : List Nat × List Char :=
  ((cs.takeWhile Char.isDigit).map digitValue, cs.dropWhile Char.isDigit)

/-- The number that decimal digits denote. -/
def ofDigits (ds : List Nat) : Nat := ds.foldl (fun n d => 10 * n + d) 0

namespace Numeral

/-- The exponent that a text starts with, its mark already taken; true stands for a minus sign. -/
def takeExponent? (cs : List Char) : Option ((Bool × List Nat) × List Char) :=
  let (negative, cs) := match cs with
    | '-' :: rest => (true, rest)
    | '+' :: rest => (false, rest)
    | rest => (false, rest)
  let (ds, rest) := takeDigits cs
  if ds.isEmpty then none else some ((negative, ds), rest)

/-- The numeral that a text consists of. -/
def ofChars? (cs : List Char) : Option Numeral := do
  let (negative, cs) := match cs with
    | '-' :: rest => (true, rest)
    | rest => (false, rest)
  let (whole, cs) := takeDigits cs
  if whole.isEmpty || (whole.head? == some 0 && whole.length != 1) then none
  let (fraction, cs) ← match cs with
    | '.' :: rest =>
      let (ds, rest) := takeDigits rest
      if ds.isEmpty then none else some (some ds, rest)
    | rest => some (none, rest)
  let (exponent, cs) ← match cs with
    | 'e' :: rest | 'E' :: rest => (takeExponent? rest).map fun (e, rest) => (some e, rest)
    | rest => some (none, rest)
  if cs.isEmpty then some { negative, whole, fraction, exponent } else none

/-- The bound of significands: they have 64 bits. -/
def significandBound : Nat := UInt64.size

/-- Takes digits into a significand as long as it stays below the bound; the others are left. -/
def absorb (s : Nat) : List Nat → Nat × List Nat
  | [] => (s, [])
  | d :: rest => if 10 * s + d < significandBound then absorb (10 * s + d) rest else (s, d :: rest)

/-- The magnitude divided by `10 ^ e`, in steps of at most `10 ^ 308`. -/
def scaleDown (x : Magnitude) (e : Nat) : Option Magnitude :=
  if x.isZero then some x
  else if e ≤ 308 then do x.div (← Magnitude.ofDecimal 1 e)
  else do
    let y ← x.div (← Magnitude.ofDecimal 1 308)
    scaleDown y (e - 308)
  termination_by e

/-- The magnitude of `significand * 10 ^ exponent`, scaled in floating point; none where that is
beyond the finite numbers. -/
def magnitude? (significand : Nat) (exponent : Int) : Option Magnitude := do
  let x ← Magnitude.nearest significand 1
  if exponent < 0 then scaleDown x exponent.natAbs
  else if exponent ≤ 308 then x.mul (← Magnitude.ofDecimal 1 exponent)
  else if x.isZero then some x
  else none

/-- The floating-point number of a numeral. -/
def real? (n : Numeral) : Option Binary64 := do
  let (s, left) := absorb 0 n.whole
  let fraction := n.fraction.getD []
  let (s, ignored) := absorb s fraction
  let shift : Int := left.length - (fraction.length - ignored.length : Nat)
  let exponent : Int := match n.exponent with
    | none => shift
    | some (true, ds) => shift - ofDigits ds
    | some (false, ds) => shift + ofDigits ds
  return ⟨n.negative, ← magnitude? s exponent⟩

/-- The number of a numeral; none where it is beyond the finite numbers. -/
def number? (n : Numeral) : Option Number :=
  let v := ofDigits n.whole
  if n.fraction.isSome || n.exponent.isSome then n.real?.map .real
  else if n.negative then
    if v = 0 || 0x8000000000000000 < v then n.real?.map .real else some (.int (-v))
  else
    if v < UInt64.size then some (.int v) else n.real?.map .real

end Numeral

end EntityModel
