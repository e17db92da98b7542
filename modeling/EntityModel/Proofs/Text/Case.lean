import EntityModel.Text.Case
import Mathlib.Data.List.Basic

/-!
# Letters in upper and in lower case

No character has the small letter g in its upper case (`notMem_upperChar`), and a character that is
not a capital sigma has its own lower case wherever it stands (`lowerAfter_append`). In ASCII, a
text is mapped letter by letter (`upper_ascii`, `lower_ascii`).
-/

namespace EntityModel.Text

/-- The characters of ASCII. -/
def IsAscii (c : Char) : Prop := c.toNat < 128

instance (c : Char) : Decidable (IsAscii c) := inferInstanceAs (Decidable (c.toNat < 128))

/-- What holds of the first numbers holds of the characters of ASCII. -/
theorem IsAscii.rec_ofNat {P : Char → Prop} (h : ∀ n < 128, P (Char.ofNat n)) {c : Char}
    (hc : IsAscii c) : P c :=
  Char.ofNat_toNat c ▸ h c.toNat hc

/-! ## No upper case is a small g -/

/-- A number that is mapped is mapped by one of the rows. -/
theorem exists_image_of_mapByRows? {rows : List CaseRow} {n k : Nat}
    (h : mapByRows? rows n = some k) : ∃ r ∈ rows, r.image? n = some k := by
  induction rows with
  | nil => cases h
  | cons r rest ih =>
    rw [mapByRows?] at h
    split at h
    · cases h
    · cases hr : r.image? n with
      | some k' =>
        rw [hr] at h
        exact ⟨r, List.mem_cons_self .., hr.trans h⟩
      | none =>
        rw [hr] at h
        obtain ⟨r', hr', himage⟩ := ih h
        exact ⟨r', List.mem_cons_of_mem _ hr', himage⟩

/-- A row whose images are all beyond a number, or before it, maps nothing to it. -/
theorem CaseRow.image?_ne {r : CaseRow} {k : Nat} (hk : 0 < k)
    (h : (k : Int) < r.first + r.delta ∨ r.last + r.delta < k) (n : Nat) :
    r.image? n ≠ some k := by
  rw [image?]
  split
  · intro heq
    have heq := Option.some.inj heq
    omega
  · exact fun heq => nomatch heq

/-- A number whose character is a given one, but not the one of zero, is the number of it. -/
theorem eq_toNat_of_ofNat_eq {n : Nat} {c : Char} (hc : 0 < c.toNat) (h : Char.ofNat n = c) :
    n = c.toNat := by
  by_cases hvalid : n.isValidChar
  · exact congrArg Char.toNat ((dif_pos hvalid).symm.trans h)
  · have hzero : Char.ofNat n = '\x00' := dif_neg hvalid
    exact absurd (h.symm.trans hzero ▸ hc) (by decide)

/-- Tables that map nothing to a character leave only the character itself with it. -/
theorem notMem_mapChar {sequences : List (Nat × List Nat)} {rows : List CaseRow} {c k : Char}
    (hk : 0 < k.toNat) (hsequences : ∀ s ∈ sequences, s.2 ≠ [] ∧ k.toNat ∉ s.2)
    (hrows : ∀ r ∈ rows, (k.toNat : Int) < r.first + r.delta ∨
      r.last + r.delta < (k.toNat : Int)) (hc : c ≠ k) :
    k ∉ mapChar sequences rows c ∧ mapChar sequences rows c ≠ [] := by
  unfold mapChar
  split
  · next s hs =>
    obtain ⟨hne, hnot⟩ := hsequences s (List.mem_of_find?_eq_some hs)
    refine ⟨fun hmem => ?_, by simpa using hne⟩
    obtain ⟨n, hn, heq⟩ := List.mem_map.1 hmem
    exact hnot (eq_toNat_of_ofNat_eq hk heq ▸ hn)
  · refine ⟨fun hmem => ?_, List.cons_ne_nil _ _⟩
    have heq := List.mem_singleton.1 hmem
    cases himage : mapByRows? rows c.toNat with
    | none =>
      rw [himage] at heq
      exact hc heq.symm
    | some n =>
      rw [himage] at heq
      obtain ⟨r, hr, hrow⟩ := exists_image_of_mapByRows? himage
      rw [eq_toNat_of_ofNat_eq hk heq.symm] at hrow
      exact CaseRow.image?_ne hk (hrows r hr) _ hrow

/-- No character has a small g in its upper case, and none is left out. -/
theorem notMem_upperChar (c : Char) : 'g' ∉ upperChar c ∧ upperChar c ≠ [] := by
  unfold upperChar
  split
  · next hc =>
    have hupper : c.toUpper ≠ 'g' := IsAscii.rec_ofNat (P := fun c => c.toUpper ≠ 'g')
      (by decide) hc
    exact ⟨fun hg => hupper (List.mem_singleton.1 hg).symm, List.cons_ne_nil _ _⟩
  · next hc =>
    refine notMem_mapChar (by decide) (by decide +kernel) (by decide +kernel) fun hg => ?_
    exact hc (hg ▸ by decide)

/-! ## The end of a text -/

/-- The last character of a text, if it is no capital sigma, has its own lower case. -/
theorem lowerAfter_append {c : Char} (hc : c ≠ capitalSigma) (before cs : List Char) :
    ∃ ds, lowerAfter before (cs ++ [c]) = ds ++ lowerChar c := by
  induction cs generalizing before with
  | nil => exact ⟨[], by simp [lowerAfter, hc]⟩
  | cons d cs ih =>
    obtain ⟨ds, hds⟩ := ih (d :: before)
    exact ⟨_, by rw [List.cons_append, lowerAfter, hds, ← List.append_assoc]⟩

/-! ## ASCII -/

theorem IsAscii.upperChar_eq {c : Char} (h : IsAscii c) : upperChar c = [c.toUpper] := if_pos h

section
variable {cs : List Char}

theorem upper_ascii (h : ∀ c ∈ cs, IsAscii c) : upper cs = cs.map Char.toUpper := by
  induction cs with
  | nil => rfl
  | cons c cs ih =>
    obtain ⟨hc, hcs⟩ := List.forall_mem_cons.1 h
    rw [List.map_cons, ← ih hcs, upper, List.flatMap_cons, hc.upperChar_eq]
    rfl

theorem lowerAfter_ascii (before : List Char) (h : ∀ c ∈ cs, IsAscii c) :
    lowerAfter before cs = cs.map Char.toLower := by
  induction cs generalizing before with
  | nil => rfl
  | cons c cs ih =>
    obtain ⟨hc, hcs⟩ := List.forall_mem_cons.1 h
    have hsigma : c ≠ capitalSigma := fun heq => absurd (heq ▸ hc) (by decide)
    have hlower : lowerChar c = [c.toLower] := if_pos hc
    rw [List.map_cons, ← ih (c :: before) hcs, lowerAfter, if_neg hsigma, hlower]
    rfl

theorem lower_ascii (h : ∀ c ∈ cs, IsAscii c) : lower cs = cs.map Char.toLower :=
  lowerAfter_ascii [] h

end

end EntityModel.Text
