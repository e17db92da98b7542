import EntityModel.Text.Case
import EntityModel.Text.ClusterTable

/-!
# Words of a name

A name is cut into words at blanks, hyphens and underscores, between a small and a capital letter,
before the last of several capitals that a small letter follows, and between letters and digits. The
units that are looked at are clusters: a letter with the marks behind it is one unit.
-/

namespace EntityModel.Text

/-! ## Clusters -/

/-- Whether a character continues the cluster in front of it. -/
def isExtending (c : Char) : Bool := inRanges extendingRanges c.toNat

/-- Whether a character belongs to the character behind it. -/
def isPrepended (c : Char) : Bool := inRanges prependedRanges c.toNat

/-- Control characters, which are clusters of their own. -/
def isClusterControl (c : Char) : Bool := c.toNat < 32 || (127 ≤ c.toNat && c.toNat < 160)

/-- Whether two neighbouring characters belong to one cluster. -/
def joins (c d : Char) : Bool :=
  if c = '\r' && d = '\n' then true
  else if isClusterControl c || isClusterControl d then false
  else isExtending d || isPrepended c

/-- The clusters of a text. -/
def clusters : List Char → List (List Char)
  | [] => []
  | [c] => [[c]]
  | c :: d :: rest =>
    match clusters (d :: rest) with
    | [] => [[c]]
    | first :: others => if joins c d then (c :: first) :: others else [c] :: first :: others

/-! ## Boundaries -/

/-- Whether a unit has a case and is in upper case. -/
def isUpperUnit (u : List Char) : Bool := upper u != lower u && u == upper u

/-- Whether a unit has a case and is in lower case. -/
def isLowerUnit (u : List Char) : Bool := upper u != lower u && u == lower u

/-- Whether a unit is a digit. -/
def isDigitUnit (u : List Char) : Bool := u.all Char.isDigit

/-- Whether a unit separates two words and belongs to neither. -/
def isSeparator (u : List Char) : Bool := u == [' '] || u == ['-'] || u == ['_']

/-- Whether a word ends between two units, the second of which has the given units behind it. -/
def endsBetween (u v : List Char) (after : List (List Char)) : Bool :=
  (isLowerUnit u && isUpperUnit v) ||
    (isUpperUnit u && isUpperUnit v && after.head?.any isLowerUnit) ||
    ((isLowerUnit u || isUpperUnit u) && isDigitUnit v) ||
    (isDigitUnit u && (isLowerUnit v || isUpperUnit v))

/-- The words of units, where `word` holds the units of the word being read, in reverse. -/
def wordsFrom (word : List (List Char)) : List (List Char) → List (List (List Char))
  | [] => [word.reverse]
  | [u] => if isSeparator u then [word.reverse, []] else [(u :: word).reverse]
  | u :: v :: after =>
    if isSeparator u then word.reverse :: wordsFrom [] (v :: after)
    else if endsBetween u v after then (u :: word).reverse :: wordsFrom [] (v :: after)
    else wordsFrom (u :: word) (v :: after)

/-- The words of a text, each as its units; a word is empty where a separator stands first, last or
next to another one. -/
def words (cs : List Char) : List (List (List Char)) := wordsFrom [] (clusters cs)

/-! ## Joining words -/

/-- A word with its first unit in upper and the others in lower case. -/
def capitalized : List (List Char) → List Char
  | [] => []
  | u :: rest => upper u ++ lower rest.flatten

/-- A word in lower case. -/
def uncapitalized (w : List (List Char)) : List Char := lower w.flatten

/-- The words of a text joined, each capitalized. -/
def pascalCase (cs : List Char) : List Char := (words cs).flatMap capitalized

/-- The words of a text joined, the first in lower case, be it empty, and the others capitalized. -/
def camelCase (cs : List Char) : List Char :=
  match words cs with
  | [] => []
  | w :: rest => uncapitalized w ++ rest.flatMap capitalized

end EntityModel.Text
