import EntityModel.Proofs.Text.Words

/-!
# Characters without a case

A character that the case maps leave alone, and map no other one to (`Caseless`), stands in the
upper or the lower case of a text exactly if it stands in the text. Unless it separates words, it
stands in the joined words of a text exactly if it stands in the text (`mem_pascalCase_iff`): words
leave nothing out but what separates them (`exists_mem_wordsFrom`).
-/

namespace EntityModel.Text

/-! ## Case maps -/

/-- Tables leave a number alone: they map neither it nor anything to it. -/
structure LeftAlone (sequences : List (Nat × List Nat)) (rows : List CaseRow) (k : Nat) : Prop where
  source : (∀ s ∈ sequences, s.1 ≠ k) ∧ ∀ r ∈ rows, k < r.first ∨ r.last < k
  image : (∀ s ∈ sequences, s.2 ≠ [] ∧ k ∉ s.2) ∧ ∀ r ∈ rows, (k : Int) < r.first + r.delta ∨
    r.last + r.delta < (k : Int)

instance (sequences : List (Nat × List Nat)) (rows : List CaseRow) (k : Nat) :
    Decidable (LeftAlone sequences rows k) :=
  decidable_of_iff (_ ∧ _) ⟨fun h => ⟨h.1, h.2⟩, fun h => ⟨h.source, h.image⟩⟩

/-- A character that tables leave alone is the image of itself, and of nothing else. -/
theorem LeftAlone.mem_mapChar_iff {sequences : List (Nat × List Nat)} {rows : List CaseRow}
    {k : Char} (h : LeftAlone sequences rows k.toNat) (hk : 0 < k.toNat) (c : Char) :
    k ∈ mapChar sequences rows c ↔ c = k := by
  constructor
  · intro hmem
    by_contra hc
    exact (notMem_mapChar hk h.image.1 h.image.2 hc).1 hmem
  · rintro rfl
    have hsequence : sequences.find? (fun s => s.1 == c.toNat) = none :=
      List.find?_eq_none.2 fun s hs => by simpa using h.source.1 s hs
    have hrow : mapByRows? rows c.toNat = none := by
      by_contra hsome
      obtain ⟨n, hn⟩ := Option.ne_none_iff_exists'.1 hsome
      obtain ⟨r, hr, himage⟩ := exists_image_of_mapByRows? hn
      have houtside := h.source.2 r hr
      rw [CaseRow.image?, if_neg (by omega)] at himage
      cases himage
    simp [mapChar, hsequence, hrow]

/-- A character that is its own upper and lower case, and that of no other one. It is no sigma,
whose lower case depends on its place. -/
structure Caseless (k : Char) : Prop where
  mem_upperChar_iff : ∀ c, k ∈ upperChar c ↔ c = k
  mem_lowerChar_iff : ∀ c, k ∈ lowerChar c ↔ c = k
  notSigma : k ∉ ['\u03a3', '\u03c2', '\u03c3']

/-- A character that the tables and the case maps of ASCII leave alone has no case. -/
theorem Caseless.of_tables {k : Char} (hk : 0 < k.toNat)
    (hupper : LeftAlone upperSequences upperRows k.toNat)
    (hlower : LeftAlone lowerSequences lowerRows k.toNat)
    (hascii : ∀ n < 128, ((Char.ofNat n).toUpper = k ↔ Char.ofNat n = k) ∧
      ((Char.ofNat n).toLower = k ↔ Char.ofNat n = k))
    (hsigma : k ∉ ['\u03a3', '\u03c2', '\u03c3']) : Caseless k where
  mem_upperChar_iff c := by
    rw [upperChar]
    split
    · next hc =>
      rw [List.mem_singleton, eq_comm]
      exact (IsAscii.rec_ofNat (P := fun c => (c.toUpper = k ↔ c = k) ∧ (c.toLower = k ↔ c = k))
        hascii hc).1
    · exact hupper.mem_mapChar_iff hk c
  mem_lowerChar_iff c := by
    rw [lowerChar]
    split
    · next hc =>
      rw [List.mem_singleton, eq_comm]
      exact (IsAscii.rec_ofNat (P := fun c => (c.toUpper = k ↔ c = k) ∧ (c.toLower = k ↔ c = k))
        hascii hc).2
    · exact hlower.mem_mapChar_iff hk c
  notSigma := hsigma

section
variable {k : Char} {cs : List Char}

/-- The upper case of a text has the same characters without a case. -/
theorem Caseless.mem_upper_iff (h : Caseless k) : k ∈ upper cs ↔ k ∈ cs := by
  simp [upper, h.mem_upperChar_iff]

theorem Caseless.mem_lowerAfter_iff (h : Caseless k) (before : List Char) :
    k ∈ lowerAfter before cs ↔ k ∈ cs := by
  induction cs generalizing before with
  | nil => rfl
  | cons c cs ih =>
    rw [lowerAfter, List.mem_append, List.mem_cons, ih]
    refine or_congr_left ?_
    have hsigma := h.notSigma
    split
    · next hc =>
      rw [List.mem_singleton, lowerSigma]
      subst hc
      split <;> simp_all [capitalSigma]
    · rw [h.mem_lowerChar_iff, eq_comm]

/-- The lower case of a text has the same characters without a case. -/
theorem Caseless.mem_lower_iff (h : Caseless k) : k ∈ lower cs ↔ k ∈ cs := h.mem_lowerAfter_iff []

/-- A word has the same characters without a case, also if it is capitalized. -/
theorem Caseless.mem_capitalized_iff (h : Caseless k) (w : List (List Char)) :
    k ∈ capitalized w ↔ k ∈ w.flatten := by
  cases w with
  | nil => rfl
  | cons u w => rw [capitalized, List.flatten_cons, List.mem_append, List.mem_append,
      h.mem_upper_iff, h.mem_lower_iff]

/-! ## Words -/

/-- A unit that separates no words is in one of them. -/
theorem exists_mem_wordsFrom {word us : List (List Char)} {u : List Char}
    (hu : isSeparator u = false) (h : u ∈ word ∨ u ∈ us) : ∃ w ∈ wordsFrom word us, u ∈ w := by
  fun_induction wordsFrom word us with
  | case1 word => simpa using h
  | case2 word v hv =>
    have hne : u ≠ v := fun heq => by simp [heq, hv] at hu
    exact ⟨_, List.mem_cons_self .., List.mem_reverse.2 (by simpa [hne] using h)⟩
  | case3 word v hv =>
    refine ⟨_, List.mem_singleton_self _, ?_⟩
    simpa [or_comm] using h
  | case4 word v v' after hv ih =>
    have hne : u ≠ v := fun heq => by simp [heq, hv] at hu
    rcases h with h | h
    · exact ⟨_, List.mem_cons_self .., List.mem_reverse.2 h⟩
    · obtain ⟨w, hw, hmem⟩ := ih (.inr ((List.mem_cons.1 h).resolve_left hne))
      exact ⟨w, List.mem_cons_of_mem _ hw, hmem⟩
  | case5 word v v' after hv hends ih =>
    rcases h with h | h
    · exact ⟨_, List.mem_cons_self .., List.mem_reverse.2 (List.mem_cons_of_mem _ h)⟩
    · rcases List.mem_cons.1 h with rfl | h
      · exact ⟨_, List.mem_cons_self .., List.mem_reverse.2 (List.mem_cons_self ..)⟩
      · obtain ⟨w, hw, hmem⟩ := ih (.inr h)
        exact ⟨w, List.mem_cons_of_mem _ hw, hmem⟩
  | case6 word v v' after hv hends ih =>
    refine ih ?_
    rcases h with h | h
    · exact .inl (List.mem_cons_of_mem _ h)
    · rcases List.mem_cons.1 h with rfl | h
      · exact .inl (List.mem_cons_self ..)
      · exact .inr h

/-- The joined words of a text have the same characters without a case, but for separators. -/
theorem Caseless.mem_pascalCase_iff (h : Caseless k) (hk : isSeparator [k] = false) :
    k ∈ pascalCase cs ↔ k ∈ cs := by
  simp only [pascalCase, List.mem_flatMap, h.mem_capitalized_iff, List.mem_flatten]
  constructor
  · rintro ⟨w, hw, u, hu, hmem⟩
    exact (mem_of_mem_words hw hu).2 k hmem
  · intro hmem
    rw [← flatten_clusters cs] at hmem
    obtain ⟨u, hu, hmem⟩ := List.mem_flatten.1 hmem
    have hseparator : isSeparator u = false := by
      -- a separator has one character, so a unit with `k` would be `[k]`
      by_contra hseparator
      simp only [isSeparator, Bool.not_eq_false, Bool.or_eq_true, beq_iff_eq] at hseparator
      rcases hseparator with (rfl | rfl) | rfl <;>
        exact absurd hk (List.mem_singleton.1 hmem ▸ by decide)
    obtain ⟨w, hw, hmemw⟩ : ∃ w ∈ words cs, u ∈ w := exists_mem_wordsFrom hseparator (.inr hu)
    exact ⟨w, hw, u, hmemw, hmem⟩

end

end EntityModel.Text
