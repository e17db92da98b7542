import EntityModel.Number.Shortest

/-!
# Numbers of a document

A number is a whole number, kept exactly, or a number of the 64-bit floating-point format. Which of
the two a numeral denotes is for the reader of its notation to say.
-/

namespace EntityModel

/-- A number as a document holds it. -/
inductive Number where
  | int (n : Int)
  | real (x : Binary64)
  deriving DecidableEq, Repr, Inhabited

namespace Number

/-- Whether a whole number fits into 64 bits with a sign. -/
def fitsSigned64 (n : Int) : Bool := -0x8000000000000000 ≤ n && n < 0x8000000000000000

/-- The whole number, if it fits into 64 bits with a sign. -/
def toInt64? : Number → Option Int
  | .int n => if fitsSigned64 n then some n else none
  | .real _ => none

/-- The whole number, if it is a natural number below the bound. -/
def toNatBelow? (bound : Nat) : Number → Option Nat
  | .int n => if 0 ≤ n && n < bound then some n.toNat else none
  | .real _ => none

/-- The written form, with the given layout of floating-point numbers. -/
def write (l : DecimalLayout) : Number → List Char
  | .int n => (toString n).toList
  | .real x => x.write l

end Number

end EntityModel
