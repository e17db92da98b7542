import EntityModel.Text.CaseTable

/-!
# Upper and lower case

`upper` and `lower` map a text character by character by the tables of Unicode, where one character
may become several. The one rule that looks around is that of the capital sigma: behind a letter and
not before one it becomes the final form.
-/

namespace EntityModel.Text

/-- Whether a number lies in one of the ranges, which are in ascending order. -/
def inRanges : List (Nat × Nat) → Nat → Bool
  | [], _ => false
  | (first, last) :: rest, n => if n < first then false else n ≤ last || inRanges rest n

/-- What a row maps a number to. -/
def CaseRow.image? (r : CaseRow) (n : Nat) : Option Nat :=
  if r.first ≤ n ∧ n ≤ r.last ∧ (n - r.first) % r.step = 0 then some (n + r.delta).toNat else none

/-- What the first fitting row, in ascending order, maps a number to. -/
def mapByRows? : List CaseRow → Nat → Option Nat
  | [], _ => none
  | r :: rest, n => if n < r.first then none else (r.image? n).orElse fun _ => mapByRows? rest n

/-- The case mapping of one character by its two tables. -/
def mapChar (sequences : List (Nat × List Nat)) (rows : List CaseRow) (c : Char) : List Char :=
  match sequences.find? fun s => s.1 == c.toNat with
  | some s => s.2.map Char.ofNat
  | none => [((mapByRows? rows c.toNat).map Char.ofNat).getD c]

/-- The upper case of a character. -/
def upperChar (c : Char) : List Char :=
  if c.toNat < 128 then [c.toUpper] else mapChar upperSequences upperRows c

/-- The lower case of a character outside of any text. -/
def lowerChar (c : Char) : List Char :=
  if c.toNat < 128 then [c.toLower] else mapChar lowerSequences lowerRows c

/-- Whether a character has a case. -/
def isCased (c : Char) : Bool := inRanges casedRanges c.toNat

/-- Whether a character is passed over when looking for a letter beside a sigma. -/
def isCaseIgnorable (c : Char) : Bool := inRanges caseIgnorableRanges c.toNat

/-- Whether the next character that is not passed over has a case. -/
def meetsCased (cs : List Char) : Bool :=
  (cs.dropWhile isCaseIgnorable).head?.any isCased

/-- The capital sigma. -/
def capitalSigma : Char := '\u03a3'

/-- The lower case of a capital sigma between two texts, the first one in reverse. -/
def lowerSigma (before after : List Char) : Char :=
  if meetsCased before && !meetsCased after then '\u03c2' else '\u03c3'

/-- The lower case of the rest of a text; `before` is the text in front of it, in reverse. -/
def lowerAfter (before : List Char) : List Char → List Char
  | [] => []
  | c :: rest =>
    (if c = capitalSigma then [lowerSigma before rest] else lowerChar c) ++
      lowerAfter (c :: before) rest

/-- The lower case of a text. -/
def lower (cs : List Char) : List Char := lowerAfter [] cs

/-- The upper case of a text. -/
def upper (cs : List Char) : List Char := cs.flatMap upperChar

end EntityModel.Text
