import EntityModel.Document.Basic
import EntityModel.Toml.Lexical

/-!
# Numbers, truth values and times of TOML

A scalar that is no string is a run of characters without blanks, judged as a whole; only a date
and a time may be joined by one blank. A time is held as a table of one member, whose text is the
time in its normal form.
-/

namespace EntityModel.Toml

/-! ## Numbers -/

/-- Takes out the underscores of a run of digits; each has to stand between two digits. -/
def plainDigits? (isDigit : Char → Bool) : List Char → Option (List Char)
  | [] => none
  | [c] => if isDigit c then some [c] else none
  | c :: '_' :: rest => if isDigit c then (plainDigits? isDigit rest).map (c :: ·) else none
  | c :: rest => if isDigit c then (plainDigits? isDigit rest).map (c :: ·) else none

/-- The number of digits to a base. -/
def numberToBase (base : Nat) (ds : List Char) : Nat :=
  ds.foldl (fun n c => base * n + (Json.Lexeme.hexValue? c).getD 0) 0

/-- The document of a whole number of 64 bits. -/
def integer? (n : Int) : Option Document :=
  if Number.fitsSigned64 n then some (.number (.int n)) else none

/-- A whole number to a base, without a sign. -/
def basedInteger? (base : Nat) (isDigit : Char → Bool) (cs : List Char) : Option Document := do
  integer? (numberToBase base (← plainDigits? isDigit cs))

/-- Whether a character is a hexadecimal digit. -/
def isHexDigit (c : Char) : Bool := (Json.Lexeme.hexValue? c).isSome

/-- Splits a sign off; true stands for a minus sign. -/
def takeSign : List Char → Bool × List Char
  | '-' :: rest => (true, rest)
  | '+' :: rest => (false, rest)
  | rest => (false, rest)

/-- The digits of a whole part, which starts with zero only if it is zero. -/
def wholePart? (cs : List Char) : Option (List Char) := do
  let ds ← plainDigits? Char.isDigit cs
  if ds.head? = some '0' ∧ ds.length ≠ 1 then none else some ds

/-- The number of an exponent. -/
def exponent? (cs : List Char) : Option Int := do
  let (negative, cs) := takeSign cs
  let n := numberToBase 10 (← plainDigits? Char.isDigit cs)
  return if negative then -n else n

/-- The magnitude nearest to a decimal; none where it is beyond the finite numbers. -/
def magnitude? (ds : List Char) (exponent : Int) : Option Magnitude :=
  let digits := numberToBase 10 ds
  if digits = 0 ∨ ds.length + exponent < -400 then some Magnitude.zero
  else if 400 < exponent then none
  else Magnitude.ofDecimal digits exponent

/-- The floating-point number nearest to a decimal. Beyond the finite numbers only minus infinity is
accepted. -/
def real? (negative : Bool) (ds : List Char) (exponent : Int) : Option Document :=
  match magnitude? ds exponent with
  | some m => some (.number (.real ⟨negative, m⟩))
  | none => if negative then some .notFinite else none

/-- A decimal number: whole part, fraction and exponent. -/
def decimal? (cs : List Char) : Option Document := do
  let (negative, cs) := takeSign cs
  let isMark := fun c => c == '.' || c == 'e' || c == 'E'
  let whole ← wholePart? (cs.takeWhile fun c => !isMark c)
  match cs.dropWhile fun c => !isMark c with
  | [] =>
    let n : Int := numberToBase 10 whole
    integer? (if negative then -n else n)
  | '.' :: rest =>
    let isExponentMark := fun c => c == 'e' || c == 'E'
    let fraction ← plainDigits? Char.isDigit (rest.takeWhile fun c => !isExponentMark c)
    let exponent ← match rest.dropWhile fun c => !isExponentMark c with
      | [] => some 0
      | _ :: rest => exponent? rest
    real? negative (whole ++ fraction) (exponent - fraction.length)
  | _ :: rest => real? negative whole (← exponent? rest)

/-! ## Times -/

/-- A number of exactly `n` digits. -/
def fixedDigits? : Nat → List Char → Option (Nat × List Char)
  | n, cs =>
    let ds := cs.take n
    if ds.length = n ∧ ds.all Char.isDigit then some (numberToBase 10 ds, cs.drop n) else none

/-- Takes one given character. -/
def mark? (c : Char) : List Char → Option (List Char)
  | d :: rest => if c = d then some rest else none
  | [] => none

/-- The number of days of a month. -/
def daysOfMonth (year month : Nat) : Nat :=
  if month = 2 then
    if year % 4 = 0 ∧ (year % 100 ≠ 0 ∨ year % 400 = 0) then 29 else 28
  else if month = 4 ∨ month = 6 ∨ month = 9 ∨ month = 11 then 30
  else 31

/-- A number with zeros in front up to a width. -/
def padded (width n : Nat) : List Char :=
  let ds := (toString n).toList
  List.replicate (width - ds.length) '0' ++ ds

/-- A date in its normal form. -/
def date? (cs : List Char) : Option (List Char × List Char) := do
  let (year, cs) ← fixedDigits? 4 cs
  let (month, cs) ← fixedDigits? 2 (← mark? '-' cs)
  let (day, cs) ← fixedDigits? 2 (← mark? '-' cs)
  if month = 0 ∨ 12 < month ∨ day = 0 ∨ daysOfMonth year month < day then none
  else some (padded 4 year ++ '-' :: padded 2 month ++ '-' :: padded 2 day, cs)

/-- The fraction of a second: nine digits count, zeros at the end are dropped. -/
def fraction? : List Char → Option (List Char × List Char)
  | '.' :: rest =>
    let ds := rest.takeWhile Char.isDigit
    let kept := ((ds.take 9).reverse.dropWhile (· == '0')).reverse
    if ds.isEmpty then none
    else some (if kept.isEmpty then [] else '.' :: kept, rest.dropWhile Char.isDigit)
  | rest => some ([], rest)

/-- A time of day in its normal form. -/
def time? (cs : List Char) : Option (List Char × List Char) := do
  let (hour, cs) ← fixedDigits? 2 cs
  let (minute, cs) ← fixedDigits? 2 (← mark? ':' cs)
  let (second, cs) ← fixedDigits? 2 (← mark? ':' cs)
  let (fraction, cs) ← fraction? cs
  if 23 < hour ∨ 59 < minute ∨ 60 < second then none
  else some (padded 2 hour ++ ':' :: padded 2 minute ++ ':' :: padded 2 second ++ fraction, cs)

/-- The offset from universal time that a text consists of, in its normal form. -/
def offset? : List Char → Option (List Char)
  | ['Z'] | ['z'] => some ['Z']
  | c :: rest => do
    if c ≠ '+' ∧ c ≠ '-' then none
    let (hour, rest) ← fixedDigits? 2 rest
    let (minute, rest) ← fixedDigits? 2 (← mark? ':' rest)
    if 23 < hour ∨ 59 < minute ∨ !rest.isEmpty then none
    else some ((if c = '-' ∧ 60 * hour + minute ≠ 0 then '-' else '+') ::
      (padded 2 hour ++ ':' :: padded 2 minute))
  | [] => none

/-- A date, a time or both, in normal form. -/
def moment? (cs : List Char) : Option (List Char) :=
  match date? cs with
  | some (date, []) => some date
  | some (date, mark :: rest) => do
    if mark ≠ 'T' ∧ mark ≠ 't' then none
    let (time, rest) ← time? rest
    if rest.isEmpty then some (date ++ 'T' :: time)
    else return date ++ 'T' :: time ++ (← offset? rest)
  | none =>
    match time? cs with
    | some (time, []) => some time
    | _ => none

/-- The name of the one member of a time. -/
def momentName : String := "$__toml_private_datetime"

/-! ## Scalars -/

/-- Characters of scalars other than strings. -/
def isScalarChar (c : Char) : Bool :=
  isBareKeyChar c || c == '+' || c == '.' || c == ':'

/-- The scalar that a run of characters is. -/
def scalarOf? (cs : List Char) : Option Document :=
  match cs with
  | ['t', 'r', 'u', 'e'] => some (.bool true)
  | ['f', 'a', 'l', 's', 'e'] => some (.bool false)
  | '0' :: 'x' :: rest => basedInteger? 16 isHexDigit rest
  | '0' :: 'o' :: rest => basedInteger? 8 (fun c => '0' ≤ c && c ≤ '7') rest
  | '0' :: 'b' :: rest => basedInteger? 2 (fun c => c == '0' || c == '1') rest
  | cs =>
    let unsigned := (takeSign cs).2
    if unsigned = ['i', 'n', 'f'] ∨ unsigned = ['n', 'a', 'n'] then some .notFinite
    else
      match moment? cs with
      | some text => some (.table [(momentName, .text (String.ofList text))])
      | none => decimal? cs

/-- A scalar other than a string, and what follows it. -/
def scalar? (cs : List Char) : Option (Document × List Char) := do
  let run := cs.takeWhile isScalarChar
  let rest := cs.dropWhile isScalarChar
  match rest with
  | ' ' :: next :: more =>
    if next.isDigit && (date? run).any (·.2.isEmpty) then
      let time := (next :: more).takeWhile isScalarChar
      return (← scalarOf? (run ++ 'T' :: time), (next :: more).dropWhile isScalarChar)
    else return (← scalarOf? run, rest)
  | _ => return (← scalarOf? run, rest)

end EntityModel.Toml
