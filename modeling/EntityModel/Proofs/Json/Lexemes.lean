import EntityModel.Json.Lexeme
import EntityModel.Json.Printer
import EntityModel.Proofs.Document.Parts
import Mathlib.Data.List.Basic

/-!
# The lexemes of written JSON

What the printer writes for a scalar is one lexeme and stands for that scalar: the digits of a whole
number (`lexed_number`), and the escaped characters of a text (`Lexed.quoted`).
-/

namespace EntityModel

/-! ## Numerals -/

/-- The digits in front of a text are all taken. -/
theorem takeDigits_append {ds rest : List Char} (hds : ∀ c ∈ ds, c.isDigit = true)
    (hrest : ∀ c ∈ rest.head?, c.isDigit = false) :
    takeDigits (ds ++ rest) = (ds.map digitValue, rest) := by
  have htake : (ds ++ rest).takeWhile Char.isDigit = ds := by
    rw [List.takeWhile_append_of_pos hds]
    cases rest with
    | nil => simp
    | cons c rest => simp [hrest c rfl]
  have hdrop : (ds ++ rest).dropWhile Char.isDigit = rest := by
    rw [List.dropWhile_append_of_pos hds]
    cases rest with
    | nil => rfl
    | cons c rest => simp [hrest c rfl]
  rw [takeDigits, htake, hdrop]

namespace Numeral

/-- The digits of a natural number. -/
def digits (n : Nat) : List Nat := (Nat.toDigits 10 n).map digitValue

theorem ofDigits_digits (n : Nat) : ofDigits (digits n) = n := by
  rw [ofDigits, digits, List.foldl_map]
  exact Nat.ofDigitChars_ten_toDigits

theorem digits_of_lt {n : Nat} (h : n < 10) : digits n = [n] := by
  have hvalue : ∀ d < 10, digitValue (Nat.digitChar d) = d := by decide
  rw [digits, Nat.toDigits_of_lt_base h, List.map_singleton, hvalue n h]

/-- Only zero has a zero in front. -/
theorem head?_digits {n : Nat} (hn : 0 < n) : (digits n).head? ≠ some 0 := by
  induction n using Nat.strongRecOn with
  | _ n ih =>
    by_cases h : n < 10
    · rw [digits_of_lt h]
      exact fun he => Nat.ne_of_gt hn (Option.some.inj he)
    · have hdigits : digits n = digits (n / 10) ++ digits (n % 10) := by
        have hlast : n % 10 < 10 := Nat.mod_lt _ (by decide)
        rw [digits, digits, digits, Nat.toDigits_of_base_le (by decide) (Nat.le_of_not_lt h),
          Nat.toDigits_of_lt_base hlast, List.map_append]
      have hne : digits (n / 10) ≠ [] := by simp [digits, Nat.toDigits_ne_nil]
      rw [hdigits, List.head?_append_of_ne_nil _ hne]
      exact ih (n / 10) (by omega) (by omega)

/-- The digits of a natural number are a whole part. -/
theorem whole_digits (n : Nat) :
    ((digits n).isEmpty || ((digits n).head? == some 0 && (digits n).length != 1)) = false := by
  rcases Nat.eq_zero_or_pos n with rfl | hn
  · rfl
  · have hne : (digits n).isEmpty = false := by simp [digits, Nat.toDigits_ne_nil]
    have hhead : ((digits n).head? == some 0) = false := by simpa using head?_digits hn
    rw [hne, hhead]
    rfl

theorem takeDigits_toDigits (n : Nat) : takeDigits (Nat.toDigits 10 n) = (digits n, []) := by
  have hdigits : ∀ c ∈ Nat.toDigits 10 n, c.isDigit = true := fun c hc =>
    Nat.isDigit_of_mem_toDigits (by decide) (by decide) hc
  have h : takeDigits (Nat.toDigits 10 n ++ []) = (digits n, []) :=
    takeDigits_append hdigits fun c hc => nomatch hc
  rwa [List.append_nil] at h

/-- The digits of a natural number are a numeral. -/
theorem ofChars?_toDigits (n : Nat) :
    ofChars? (Nat.toDigits 10 n) = some ⟨false, digits n, none, none⟩ := by
  have hsign : ∀ rest, Nat.toDigits 10 n ≠ '-' :: rest := fun rest h => by
    have hminus : '-' ∈ Nat.toDigits 10 n := h ▸ List.mem_cons_self ..
    exact absurd (Nat.isDigit_of_mem_toDigits (by decide) (by decide) hminus) (by decide)
  unfold ofChars?
  split
  next negative cs heq =>
    split at heq
    · next rest h => exact absurd h (hsign rest)
    · cases heq
      simp only [takeDigits_toDigits, whole_digits]
      rfl

/-- The digits of a natural number behind a minus sign are a numeral. -/
theorem ofChars?_neg_toDigits (n : Nat) :
    ofChars? ('-' :: Nat.toDigits 10 n) = some ⟨true, digits n, none, none⟩ := by
  simp only [ofChars?, takeDigits_toDigits, whole_digits]
  rfl

/-- The digits of a natural number of 64 bits denote it. -/
theorem number?_digits {n : Nat} (h : n < 0x10000000000000000) :
    number? ⟨false, digits n, none, none⟩ = some (.int n) := by
  have hsize : n < UInt64.size := h
  simp [number?, ofDigits_digits, hsize]

/-- With a minus sign they denote a negative number, if that fits into 64 bits with a sign. -/
theorem number?_neg_digits {n : Nat} (hpos : 0 < n) (h : n ≤ 0x8000000000000000) :
    number? ⟨true, digits n, none, none⟩ = some (.int (-n)) := by
  simp [number?, ofDigits_digits, Nat.ne_of_gt hpos, Nat.not_lt.2 h]

end Numeral

/-- The characters a whole number is written with. -/
theorem Number.write_int (l : DecimalLayout) (k : Int) : (Number.int k).write l =
    if k < 0 then '-' :: Nat.toDigits 10 k.natAbs else Nat.toDigits 10 k.natAbs := by
  rw [write, Int.toString_eq_repr, Int.repr_eq_if]
  by_cases hk : k < 0
  · have habs : (-k).toNat = k.natAbs := by omega
    rw [if_neg (by omega), if_pos hk, habs, Nat.repr_eq_ofList_toDigits, String.toList_append,
      String.toList_ofList (l := Nat.toDigits 10 k.natAbs)]
    rfl
  · have habs : k.toNat = k.natAbs := by omega
    rw [if_pos (by omega), if_neg hk, habs, Nat.repr_eq_ofList_toDigits, String.toList_ofList]

/-- A whole number is written as a numeral that denotes it. -/
theorem Number.Whole.number?_write {n : Number} (h : n.Whole) :
    ∃ k, Numeral.ofChars? (n.write Json.realLayout) = some k ∧ k.number? = some n := by
  cases n with
  | real x =>
    obtain rfl : x = ⟨true, .zero⟩ := h
    exact ⟨⟨true, [0], some [0], none⟩, by decide +kernel, by decide +kernel⟩
  | int k =>
    obtain ⟨hlow, hhigh⟩ := h
    rw [write_int]
    split
    · next hk =>
      have habs : -(k.natAbs : Int) = k := by omega
      have hvalue := Numeral.number?_neg_digits (n := k.natAbs) (by omega) (by omega)
      exact ⟨_, Numeral.ofChars?_neg_toDigits k.natAbs, by rw [hvalue, habs]⟩
    · next hk =>
      have habs : (k.natAbs : Int) = k := by omega
      have hvalue := Numeral.number?_digits (n := k.natAbs) (by omega)
      exact ⟨_, Numeral.ofChars?_toDigits k.natAbs, by rw [hvalue, habs]⟩

namespace Json

open Lexeme

/-! ## Quoted texts -/

/-- How a character stands in a quoted text: escaped by another one, by its code, or as it is. -/
inductive Escaped (c : Char) : List Char → Prop
  | short {e : Char} : simpleEscape? e = some c → Escaped c ['\\', e]
  | code : c.toNat < 32 → Escaped c (codeEscape c.toNat)
  | plain : c ≠ '\x22' → c ≠ '\\' → 32 ≤ c.toNat → Escaped c [c]

theorem escaped_escape (c : Char) : Escaped c (escape c) := by
  unfold escape
  split_ifs with hquote hbackslash hb ht hn hf hr hcontrol
  · subst hquote
    exact .short rfl
  · subst hbackslash
    exact .short rfl
  · exact hb ▸ .short rfl
  · exact ht ▸ .short rfl
  · exact hn ▸ .short rfl
  · exact hf ▸ .short rfl
  · exact hr ▸ .short rfl
  · exact .code hcontrol
  · exact .plain hquote hbackslash (Nat.le_of_not_lt hcontrol)

/-- A hexadecimal digit is read back, and it neither ends a text nor starts an escape. -/
theorem hexValue?_hexDigit : ∀ n < 16,
    hexValue? (hexDigit n) = some n ∧ hexDigit n ≠ '\x22' ∧ hexDigit n ≠ '\\' := by
  decide

/-- An escaped character does not end the text that it stands in. -/
theorem scanFrom?_escape (c : Char) (read : List Char) (found : List Lexeme) (rest : List Char) :
    scanFrom? (.quoted read) found (escape c ++ rest) =
      scanFrom? (.quoted ((escape c).reverse ++ read)) found rest := by
  have h := escaped_escape c
  generalize escape c = es at *
  cases h with
  | short => rfl
  | code =>
    have hdigit : ∀ k, hexDigit (k % 16) ≠ '\x22' ∧ hexDigit (k % 16) ≠ '\\' := fun k =>
      (hexValue?_hexDigit _ (Nat.mod_lt k (by decide))).2
    simp [codeEscape, scanFrom?, step?, hdigit]
  | plain hquote hbackslash => simp [scanFrom?, step?, hquote, hbackslash]

/-- The code of a character is no half of a pair, so it stands for the character. -/
theorem chars?_code (c : Char) (us : List (Char ⊕ Nat)) :
    chars? (.inr c.toNat :: us) = (chars? us).map (c :: ·) := by
  have hvalid : c.toNat < 0xD800 ∨ 0xDFFF < c.toNat ∧ c.toNat < 0x110000 := c.valid
  have hhigh : isHigh c.toNat = false := by simp [isHigh]; omega
  have hlow : isLow c.toNat = false := by simp [isLow]; omega
  have hc : Char.ofNat c.toNat = c := Char.ofNat_toNat c
  rcases us with _ | ⟨_ | n, us⟩ <;> simp [chars?, hhigh, hlow, hc]

/-- An escaped character is one unit, which stands for it. -/
theorem exists_unit (c : Char) :
    ∃ u, (∀ rest, units? (escape c ++ rest) = (units? rest).map (u :: ·)) ∧
      ∀ us, chars? (u :: us) = (chars? us).map (c :: ·) := by
  have h := escaped_escape c
  generalize escape c = es at *
  cases h with
  | @short e he =>
    refine ⟨.inl c, fun rest => ?_, fun us => rfl⟩
    have hu : e ≠ 'u' := fun h => by subst h; cases he
    rw [List.cons_append, List.cons_append, List.nil_append, units?, he]
    · cases units? rest <;> rfl
    · exact fun _ _ _ _ _ h => absurd h hu
  | code hcontrol =>
    refine ⟨.inr c.toNat, fun rest => ?_, fun us => ?_⟩
    · have hvalue : ∀ k, hexValue? (hexDigit (k % 16)) = some (k % 16) := fun k =>
        (hexValue?_hexDigit _ (Nat.mod_lt k (by decide))).1
      have hunit : 4096 * (c.toNat / 4096 % 16) + 256 * (c.toNat / 256 % 16) +
          16 * (c.toNat / 16 % 16) + c.toNat % 16 = c.toNat := by
        omega
      simp only [codeEscape, List.cons_append, List.nil_append, units?, codeUnit?, hvalue,
        Option.bind_eq_bind, Option.bind_some, Option.pure_def, hunit]
      cases units? rest <;> rfl
    · exact chars?_code c us
  | plain hquote hbackslash hcontrol =>
    refine ⟨.inl c, fun rest => ?_, fun us => rfl⟩
    have hcontrol : ¬ (decide (c.toNat < 32) || decide (c = '\\')) = true := by
      simp [hbackslash, hcontrol]
    rw [List.cons_append, List.nil_append, units?, if_neg hcontrol]
    · cases units? rest <;> rfl
    · exact fun _ _ _ _ _ h => absurd h hbackslash
    · exact fun _ _ h => absurd h hbackslash

/-- The escaped characters of a text are read as the text. -/
theorem token?_quoted (cs : List Char) :
    token? (.quoted (cs.flatMap escape)) = some (.text (some (String.ofList cs))) := by
  have hunits : ∃ us, units? (cs.flatMap escape) = some us ∧ chars? us = some cs := by
    induction cs with
    | nil => exact ⟨[], rfl, rfl⟩
    | cons c cs ih =>
      obtain ⟨us, hus, hcs⟩ := ih
      obtain ⟨u, hunits, hchars⟩ := exists_unit c
      exact ⟨u :: us, by rw [List.flatMap_cons, hunits, hus]; rfl, by rw [hchars, hcs]; rfl⟩
  obtain ⟨us, hus, hcs⟩ := hunits
  rw [token?, hus, Option.map_some, hcs, Option.map_some]

theorem scanFrom?_escapes (cs read : List Char) (found : List Lexeme) (rest : List Char) :
    scanFrom? (.quoted read) found (cs.flatMap escape ++ rest) =
      scanFrom? (.quoted ((cs.flatMap escape).reverse ++ read)) found rest := by
  induction cs generalizing read with
  | nil => rfl
  | cons c cs ih =>
    rw [List.flatMap_cons, List.append_assoc, scanFrom?_escape, ih, List.reverse_append,
      List.append_assoc]

/-! ## Tokens in front of a text -/

/-- A character that no word and no numeral goes on with. -/
def EndsScalar (c : Char) : Prop := isWordChar c = false ∧ isNumeralChar c = false

/-- Where a text ends or another lexeme has to start. -/
def Delimited (cs : List Char) : Prop := ∀ c ∈ cs.head?, EndsScalar c

/-- The characters are those of the tokens, whatever stands behind them. -/
def Lexed (cs : List Char) (ts : List Token) : Prop :=
  ∃ ls : List Lexeme, ls.mapM token? = some ts ∧ ∀ found rest, Delimited rest →
    scanFrom? .between found (cs ++ rest) = scanFrom? .between (ls.reverse ++ found) rest

namespace Lexed

variable {cs ds : List Char} {ts us : List Token}

theorem nil : Lexed [] [] := ⟨[], rfl, fun _ _ _ => rfl⟩

/-- What is behind the first part has to start with a new lexeme. -/
theorem append (h : Lexed cs ts) (h' : Lexed ds us)
    (hds : ∃ c rest, ds = c :: rest ∧ EndsScalar c) :
    Lexed (cs ++ ds) (ts ++ us) := by
  obtain ⟨ls, hls, hscan⟩ := h
  obtain ⟨ls', hls', hscan'⟩ := h'
  obtain ⟨c, ds, rfl, hc⟩ := hds
  refine ⟨ls ++ ls', by rw [List.mapM_append, hls, hls']; rfl, fun found rest hrest => ?_⟩
  have hdelimited : Delimited (c :: ds ++ rest) := fun c' hc' => Option.some.inj hc' ▸ hc
  rw [List.append_assoc, hscan found _ hdelimited, hscan' _ _ hrest, List.reverse_append,
    List.append_assoc]

/-- A bracket, colon or comma is a lexeme by itself. -/
theorem mark {c : Char} (hc : isMark c = true) (h : Lexed cs ts) :
    Lexed (c :: cs) (.mark c :: ts) := by
  obtain ⟨ls, hls, hscan⟩ := h
  refine ⟨.mark c :: ls, by rw [List.mapM_cons, hls]; rfl, fun found rest hrest => ?_⟩
  have hblank : isBlank c = false := by
    simp only [isMark, Bool.or_eq_true, beq_iff_eq] at hc
    rcases hc with ((((rfl | rfl) | rfl) | rfl) | rfl) | rfl <;> rfl
  have hstart : start? found c = some (.between, .mark c :: found) := by
    simp [start?, hblank, hc]
  rw [List.cons_append, scanFrom?, step?, hstart]
  exact (hscan _ rest hrest).trans (by rw [List.reverse_cons, List.append_assoc]; rfl)

/-- Blanks are passed over. -/
theorem blank {c : Char} (hc : isBlank c = true) (h : Lexed cs ts) : Lexed (c :: cs) ts := by
  obtain ⟨ls, hls, hscan⟩ := h
  refine ⟨ls, hls, fun found rest hrest => ?_⟩
  rw [← hscan found rest hrest, List.cons_append, scanFrom?, step?, start?, if_pos hc]
  rfl

/-- A quoted text ends with its quotation mark. -/
theorem quoted (s : String) (h : Lexed cs ts) :
    Lexed (Json.quoted s ++ cs) (.text (some s) :: ts) := by
  obtain ⟨ls, hls, hscan⟩ := h
  have htoken := token?_quoted s.toList
  rw [String.ofList_toList] at htoken
  refine ⟨.quoted (s.toList.flatMap escape) :: ls, ?_, fun found rest hrest => ?_⟩
  · rw [List.mapM_cons, htoken, hls]
    rfl
  · have hopen : Json.quoted s ++ cs ++ rest =
        '\x22' :: (s.toList.flatMap escape ++ '\x22' :: (cs ++ rest)) := by
      simp [Json.quoted]
    have hclose : ∀ read, scanFrom? (.quoted read) found ('\x22' :: (cs ++ rest)) =
        scanFrom? .between (.quoted read.reverse :: found) (cs ++ rest) := fun _ => rfl
    rw [hopen]
    refine (scanFrom?_escapes s.toList [] found _).trans ?_
    rw [hclose, hscan _ _ hrest, List.append_nil, List.reverse_reverse, List.reverse_cons,
      List.append_assoc]
    rfl

/-- A word ends where another lexeme starts. -/
theorem word (read : List Char) {t : Token} (hread : ∀ found rest,
    scanFrom? .between found (cs ++ rest) = scanFrom? (.word read) found rest)
    (ht : token? (.word read.reverse) = some t) : Lexed cs [t] := by
  refine ⟨[.word read.reverse], by rw [List.mapM_cons, ht]; rfl, fun found rest hrest => ?_⟩
  rw [hread]
  cases rest with
  | nil => rfl
  | cons c rest =>
    rw [scanFrom?, step?, (hrest c rfl).1]
    rfl

/-- A numeral ends where another lexeme starts. -/
theorem numeral {c : Char} {t : Token} (hc : c.isDigit = true ∨ c = '-')
    (hcs : ∀ c ∈ cs, isNumeralChar c = true) (ht : token? (.numeral (c :: cs)) = some t) :
    Lexed (c :: cs) [t] := by
  have hread : ∀ read found rest, (∀ c ∈ cs, isNumeralChar c = true) →
      scanFrom? (.numeral read) found (cs ++ rest) =
        scanFrom? (.numeral (cs.reverse ++ read)) found rest := by
    clear hcs ht
    induction cs with
    | nil => exact fun _ _ _ _ => rfl
    | cons c cs ih =>
      intro read found rest hcs
      obtain ⟨hc, hcs⟩ := List.forall_mem_cons.1 hcs
      rw [List.cons_append, scanFrom?, step?, if_pos hc, List.reverse_cons, List.append_assoc]
      exact ih (c :: read) found rest hcs
  have hstart : ∀ found, start? found c = some (.numeral [c], found) := by
    rcases hc with hc | rfl
    · have hne : ∀ c', c'.isDigit = false → c ≠ c' := fun c' hc' h => by simp [← h, hc] at hc'
      simp [start?, isBlank, isMark, hne, hc]
    · exact fun _ => rfl
  refine ⟨[.numeral (c :: cs)], by rw [List.mapM_cons, ht]; rfl, fun found rest hrest => ?_⟩
  rw [List.cons_append, scanFrom?, step?, hstart]
  refine (hread [c] found rest hcs).trans ?_
  cases rest with
  | nil => simp [scanFrom?, finish?]
  | cons c' rest =>
    rw [scanFrom?, step?, (hrest c' rfl).2, List.reverse_append, List.reverse_reverse]
    rfl

end Lexed

/-- A whole number is written as one numeral. -/
theorem lexed_number {n : Number} (h : n.Whole) :
    Lexed (n.write realLayout) [.number (some n)] := by
  obtain ⟨k, hk, hvalue⟩ := h.number?_write
  have hchars : ∃ c cs, n.write realLayout = c :: cs ∧ (c.isDigit = true ∨ c = '-') ∧
      ∀ c ∈ cs, isNumeralChar c = true := by
    cases n with
    | real x =>
      obtain rfl : x = ⟨true, .zero⟩ := h
      have hzero : ['0', '.', '0'].all isNumeralChar = true := by decide
      exact ⟨'-', ['0', '.', '0'], by decide +kernel, .inr rfl, List.all_eq_true.1 hzero⟩
    | int k =>
      have hdigit : ∀ c ∈ Nat.toDigits 10 k.natAbs, c.isDigit = true := fun c hc =>
        Nat.isDigit_of_mem_toDigits (by decide) (by decide) hc
      have hnumeral : ∀ c ∈ Nat.toDigits 10 k.natAbs, isNumeralChar c = true := fun c hc => by
        simp [isNumeralChar, hdigit c hc]
      rw [Number.write_int]
      split
      · exact ⟨'-', _, rfl, .inr rfl, hnumeral⟩
      · obtain ⟨c, cs, heq⟩ := List.exists_cons_of_ne_nil (Nat.toDigits_ne_nil (n := k.natAbs))
        rw [heq] at hdigit hnumeral ⊢
        exact ⟨c, cs, rfl, .inl (hdigit c (List.mem_cons_self ..)),
          fun c hc => hnumeral c (List.mem_cons_of_mem _ hc)⟩
  obtain ⟨c, cs, hwrite, hc, hcs⟩ := hchars
  rw [hwrite] at hk ⊢
  exact .numeral hc hcs (by rw [token?, hk, Option.map_some, hvalue])

theorem lexed_null : Lexed nullText [.null] :=
  .word ['l', 'l', 'u', 'n'] (fun _ _ => rfl) rfl

theorem lexed_bool (b : Bool) : Lexed (boolText b) [.bool b] := by
  cases b with
  | false => exact .word ['e', 's', 'l', 'a', 'f'] (fun _ _ => rfl) rfl
  | true => exact .word ['e', 'u', 'r', 't'] (fun _ _ => rfl) rfl

end Json

end EntityModel
