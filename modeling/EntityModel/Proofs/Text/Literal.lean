import EntityModel.Naming
import EntityModel.Proofs.Json.Lexemes

/-!
# Literals in single quotation marks

`Literal.read?` reads a text literal of JavaScript: up to the quotation mark that ends it, with
every escape of the language, and no line end that is not escaped. An escaped character is read back
as itself (`exists_unit`), so behind a quotation mark an escaped text is read as the text, up to the
next quotation mark and not further (`escapeLiteral_read_back`). The characters that have to be
escaped are those that a body cannot hold as themselves (`Literal.isSpecial`).
-/

namespace EntityModel

namespace Literal

/-! ## Reading -/

/-- What ends a line, and must not stand in a literal. -/
def isLineEnd (c : Char) : Bool := c == '\n' || c == '\r' || c == '\u2028' || c == '\u2029'

/-- What cannot stand for itself in a literal. -/
def isSpecial (c : Char) : Bool := c == '\x27' || c == '\\' || isLineEnd c

/-- What the reader is in: between characters, right behind a backslash, behind an escaped zero or
carriage return, or in a code, of which digits are missing or which is in braces. -/
inductive Mode where
  | between
  | escaped
  | zero
  | carriageReturn
  | code
  | digits (missing value : Nat)
  | braces (value : Option Nat)
  deriving DecidableEq

/-- What a character is to the reader: the end, or a part of the value and where to go on. -/
inductive Step where
  | close
  | next (mode : Mode) (read : List (Char ⊕ Nat))
  deriving DecidableEq

/-- A character that is not part of an escape. -/
def plain? (c : Char) : Option Step :=
  if c = '\x27' then some .close
  else if c = '\\' then some (.next .escaped [])
  else if isLineEnd c then none
  else some (.next .between [.inl c])

/-- The character that one behind a backslash stands for: itself, if it is no letter with a meaning
of its own. -/
def meaning : Char → Char
  | 'b' => '\x08'
  | 'f' => '\x0c'
  | 'n' => '\n'
  | 'r' => '\r'
  | 't' => '\t'
  | 'v' => '\x0b'
  | c => c

/-- A character right behind a backslash. An escaped line end stands for nothing. -/
def escaped? (c : Char) : Option Step :=
  if c = 'u' then some (.next .code [])
  else if c = 'x' then some (.next (.digits 2 0) [])
  else if c = '0' then some (.next .zero [.inl '\x00'])
  else if c.isDigit then none
  else if c = '\r' then some (.next .carriageReturn [])
  else if isLineEnd c then some (.next .between [])
  else some (.next .between [.inl (meaning c)])

/-- A digit of a code of which some digits are missing. -/
def digit? (missing value : Nat) (c : Char) : Option Step :=
  (Json.Lexeme.hexValue? c).map fun d =>
    if missing = 1 then .next .between [.inr (16 * value + d)]
    else .next (.digits (missing - 1) (16 * value + d)) []

/-- A digit of a code in braces, or the brace behind it. -/
def inBraces? (value : Option Nat) (c : Char) : Option Step :=
  if c = '\x7d' then value.map fun n => .next .between [.inr n]
  else (Json.Lexeme.hexValue? c).bind fun d =>
    let n := 16 * value.getD 0 + d
    if n < 0x110000 then some (.next (.braces (some n)) []) else none

/-- What a character is in a mode. -/
def step? : Mode → Char → Option Step
  | .between, c => plain? c
  | .escaped, c => escaped? c
  | .zero, c => if c.isDigit then none else plain? c
  | .carriageReturn, c => if c = '\n' then some (.next .between []) else plain? c
  | .code, c => if c = '\x7b' then some (.next (.braces none) []) else digit? 4 0 c
  | .digits missing value, c => digit? missing value c
  | .braces value, c => inBraces? value c

/-- The value of the rest of a literal, in characters and codes, and what follows the literal. -/
def readFrom? (mode : Mode) : List Char → Option (List (Char ⊕ Nat) × List Char)
  | [] => none
  | c :: rest =>
    match step? mode c with
    | none => none
    | some .close => some ([], rest)
    | some (.next mode read) => (readFrom? mode rest).map fun p => (read ++ p.1, p.2)

/-- The value of the literal that a text starts with, and what follows it. Half of a surrogate pair
makes a value that is no text. -/
def read? : List Char → Option (Option String × List Char)
  | '\x27' :: cs =>
    (readFrom? .between cs).map fun p => ((Json.Lexeme.chars? p.1).map String.ofList, p.2)
  | _ => none

/-- What may stand between the quotation marks: no quotation mark and no backslash that is not
escaped, no backslash without a character behind it, and no line end. -/
inductive IsBody : List Char → Prop
  | nil : IsBody []
  | plain {c : Char} {cs : List Char} : isSpecial c = false → IsBody cs → IsBody (c :: cs)
  | escape {c : Char} {cs : List Char} : isLineEnd c = false → IsBody cs → IsBody ('\\' :: c :: cs)

/-- Two bodies make one. -/
theorem IsBody.append {cs ds : List Char} (hcs : IsBody cs) (hds : IsBody ds) :
    IsBody (cs ++ ds) := by
  induction hcs with
  | nil => exact hds
  | plain hc _ ih => exact .plain hc ih
  | escape hc _ ih => exact .escape hc ih

/-- No line end stands in a body, not even escaped. -/
theorem IsBody.notLineEnd {cs : List Char} (h : IsBody cs) : ∀ c ∈ cs, isLineEnd c = false := by
  induction h with
  | nil => exact fun c hc => nomatch hc
  | plain hc _ ih =>
    simp only [isSpecial, Bool.or_eq_false_iff] at hc
    exact List.forall_mem_cons.2 ⟨hc.2, ih⟩
  | escape hc _ ih => exact List.forall_mem_cons.2 ⟨rfl, List.forall_mem_cons.2 ⟨hc, ih⟩⟩

/-- Codes of two and four digits, a code in braces, a pair of codes and an escaped line end. -/
example : read? ['\x27', '\\', 'x', '4', '1', '\\', 'u', '0', '0', '4', '2', '\\', 'u', '\x7b', '4',
    '3', '\x7d', '\\', 'u', 'D', '8', '3', 'D', '\\', 'u', 'D', 'E', '0', '0', '\\', '\r', '\n',
    '\x27', ';'] = some (some (String.ofList ['A', 'B', 'C', Char.ofNat 0x1F600]), [';']) := by
  decide +kernel

end Literal

namespace Naming

open Literal

/-! ## Escaped characters -/

/-- How a character stands in a literal: escaped by another one, by its code, or as itself. -/
inductive Escaped (c : Char) : List Char → Prop
  | short {e : Char} : escaped? e = some (.next .between [.inl c]) → isLineEnd e = false →
      Escaped c ['\\', e]
  | code {d : Char} : digit? 1 0x202 d = some (.next .between [.inr c.toNat]) →
      isSpecial d = false → Escaped c ['\\', 'u', '2', '0', '2', d]
  | plain : isSpecial c = false → Escaped c [c]

theorem escaped_escapeChar (c : Char) : Escaped c (escapeChar c) := by
  unfold escapeChar
  split_ifs with hbackslash hquote hn hr hline hparagraph
  · subst hbackslash
    exact .short rfl rfl
  · subst hquote
    exact .short rfl rfl
  · subst hn
    exact .short rfl rfl
  · subst hr
    exact .short rfl rfl
  · subst hline
    exact .code rfl rfl
  · subst hparagraph
    exact .code rfl rfl
  · exact .plain (by simp [isSpecial, isLineEnd, *])

/-- An escaped character may stand in a literal. -/
theorem isBody_escapeChar (c : Char) : IsBody (escapeChar c) := by
  have h := escaped_escapeChar c
  generalize escapeChar c = es at *
  cases h with
  | short _ he => exact .escape he .nil
  | code _ hd => exact .escape rfl (.plain rfl (.plain rfl (.plain rfl (.plain hd .nil))))
  | plain hc => exact .plain hc .nil

/-- An escaped character is one unit of the value, which stands for it. -/
theorem exists_unit (c : Char) :
    ∃ u, (∀ rest, readFrom? .between (escapeChar c ++ rest) =
        (readFrom? .between rest).map fun p => (u :: p.1, p.2)) ∧
      ∀ us, Json.Lexeme.chars? (u :: us) = (Json.Lexeme.chars? us).map (c :: ·) := by
  have h := escaped_escapeChar c
  generalize escapeChar c = es at *
  have hbackslash : step? .between '\\' = some (.next .escaped []) := rfl
  cases h with
  | @short e he =>
    refine ⟨.inl c, fun rest => ?_, fun us => rfl⟩
    have he : step? .escaped e = some (.next .between [.inl c]) := he
    simp [readFrom?, hbackslash, he, Function.comp_def]
  | @code d hd =>
    refine ⟨.inr c.toNat, fun rest => ?_, Json.chars?_code c⟩
    have hu : step? .escaped 'u' = some (.next .code []) := rfl
    have h₁ : step? .code '2' = some (.next (.digits 3 2) []) := rfl
    have h₂ : step? (.digits 3 2) '0' = some (.next (.digits 2 0x20) []) := rfl
    have h₃ : step? (.digits 2 0x20) '2' = some (.next (.digits 1 0x202) []) := rfl
    have hd : step? (.digits 1 0x202) d = some (.next .between [.inr c.toNat]) := hd
    simp [readFrom?, hbackslash, hu, h₁, h₂, h₃, hd, Function.comp_def]
  | plain hc =>
    refine ⟨.inl c, fun rest => ?_, fun us => rfl⟩
    have hstep : step? .between c = some (.next .between [.inl c]) := by
      simp only [isSpecial, Bool.or_eq_false_iff, beq_eq_false_iff_ne] at hc
      simp [step?, plain?, hc]
    simp [readFrom?, hstep]

/-- The characters of an escaped text are units of the value, which stand for the text. -/
theorem exists_units (cs : List Char) :
    ∃ us, (∀ rest, readFrom? .between (escapeChars cs ++ rest) =
        (readFrom? .between rest).map fun p => (us ++ p.1, p.2)) ∧
      Json.Lexeme.chars? us = some cs := by
  induction cs with
  | nil => exact ⟨[], fun rest => by simp [escapeChars], rfl⟩
  | cons c cs ih =>
    obtain ⟨us, hread, hus⟩ := ih
    obtain ⟨u, hunit, hu⟩ := exists_unit c
    refine ⟨u :: us, fun rest => ?_, by rw [hu, hus]; rfl⟩
    have hcons : escapeChars (c :: cs) = escapeChar c ++ escapeChars cs := List.flatMap_cons
    rw [hcons, List.append_assoc, hunit, hread, Option.map_map]
    rfl

/-- An escaped text between quotation marks is read as the text. -/
theorem read?_escapeLiteral (s : String) (rest : List Char) :
    read? ('\x27' :: ((escapeLiteral s).toList ++ '\x27' :: rest)) = some (some s, rest) := by
  obtain ⟨us, hread, hus⟩ := exists_units s.toList
  have hclose : readFrom? .between ('\x27' :: rest) = some ([], rest) := rfl
  rw [read?, escapeLiteral, String.toList_ofList, hread, hclose, Option.map_some, Option.map_some,
    List.append_nil, hus, Option.map_some, String.ofList_toList]

/-- An escaped text may stand in a literal. -/
theorem isBody_escapeLiteral (s : String) : IsBody (escapeLiteral s).toList := by
  rw [escapeLiteral, String.toList_ofList, escapeChars]
  induction s.toList with
  | nil => exact .nil
  | cons c cs ih => exact (isBody_escapeChar c).append ih

/-! ## Texts that are not changed -/

theorem escapeChar_of_plain {c : Char} (h : isSpecial c = false) : escapeChar c = [c] := by
  simp only [isSpecial, isLineEnd, Bool.or_eq_false_iff, beq_eq_false_iff_ne] at h
  simp [escapeChar, h]

theorem one_lt_length_escapeChar {c : Char} (h : isSpecial c = true) :
    1 < (escapeChar c).length := by
  unfold escapeChar
  split_ifs <;> simp_all [isSpecial, isLineEnd]

/-- Escaping does not shorten a text. -/
theorem length_le_length_escapeChars (cs : List Char) : cs.length ≤ (escapeChars cs).length := by
  induction cs with
  | nil => exact Nat.le_refl 0
  | cons c cs ih =>
    have hc : 1 ≤ (escapeChar c).length := by
      cases h : isSpecial c with
      | false => exact Nat.le_of_eq (congrArg List.length (escapeChar_of_plain h)).symm
      | true => exact Nat.le_of_lt (one_lt_length_escapeChar h)
    rw [escapeChars, List.flatMap_cons, List.length_append, List.length_cons, Nat.add_comm]
    exact Nat.add_le_add hc ih

/-- A text is as it was after escaping exactly if nothing in it had to be escaped. -/
theorem escapeChars_eq_self_iff (cs : List Char) :
    escapeChars cs = cs ↔ ∀ c ∈ cs, isSpecial c = false := by
  induction cs with
  | nil => exact iff_of_true rfl fun c hc => nomatch hc
  | cons c cs ih =>
    rw [List.forall_mem_cons, ← ih, escapeChars, List.flatMap_cons]
    cases h : isSpecial c with
    | false =>
      rw [escapeChar_of_plain h, List.singleton_append, List.cons_inj_right]
      exact (and_iff_right rfl).symm
    | true =>
      refine iff_of_false (fun heq => ?_) (fun hand => nomatch hand.1)
      have hlength := congrArg List.length heq
      have hfirst := one_lt_length_escapeChar h
      have hrest : cs.length ≤ (cs.flatMap escapeChar).length := length_le_length_escapeChars cs
      rw [List.length_append, List.length_cons] at hlength
      omega

theorem escapeLiteral_eq_self_iff (s : String) :
    escapeLiteral s = s ↔ ∀ c ∈ s.toList, isSpecial c = false := by
  rw [← escapeChars_eq_self_iff, ← String.toList_inj, escapeLiteral, String.toList_ofList]

/-! ## Main statement -/

/-- A literal that starts in front of an escaped text ends with the quotation mark that is placed
behind it, whatever follows, and has the text as its value. The escaped text holds no quotation mark
and no backslash that is not escaped, no backslash without a character behind it, and no line end.
Different texts are escaped differently. -/
theorem escapeLiteral_read_back (s : String) :
    (∀ rest, read? ('\x27' :: ((escapeLiteral s).toList ++ '\x27' :: rest)) =
      some (some s, rest)) ∧
    IsBody (escapeLiteral s).toList ∧
    (∀ c ∈ (escapeLiteral s).toList, isLineEnd c = false) ∧
    Function.Injective escapeLiteral := by
  refine ⟨read?_escapeLiteral s, isBody_escapeLiteral s, (isBody_escapeLiteral s).notLineEnd, ?_⟩
  intro a b hab
  have ha := read?_escapeLiteral a []
  rw [hab, read?_escapeLiteral b []] at ha
  exact Option.some.inj (Prod.mk.inj (Option.some.inj ha)).1.symm

/-- A text that looks escaped already, with a backslash at its end, is escaped once more. -/
example : escapeLiteral "it\\'s\u2028\\" = "it\\\\\\'s\\u2028\\\\" := by decide +kernel

end Naming

end EntityModel
