import EntityModel.Proofs.Text.Case
import EntityModel.Text.Words

/-!
# Words of a name and of what is added to it

Words that are set off by a blank are the words of their own texts (`words_blank`), as long as the
blank is a cluster of its own (`clusters_append`). What a name begins and ends with shows in the
joined words: they start with its first character (`exists_camelCase_eq`) and end with its last one
(`exists_joined_eq`), and those that are all capitalized do not start with a small g
(`head?_pascalCase_ne`). In ASCII, the two ways of joining words differ in the first letter only
(`pascalCase_ascii`).
-/

namespace EntityModel.Text

/-! ## Clusters -/

section
variable {c d : Char}

/-- The first cluster starts with the first character. -/
theorem exists_clusters (c : Char) (cs : List Char) :
    ∃ u us, clusters (c :: cs) = (c :: u) :: us := by
  induction cs generalizing c with
  | nil => exact ⟨[], [], rfl⟩
  | cons d cs ih =>
    obtain ⟨u, us, h⟩ := ih d
    rw [clusters, h]
    dsimp only
    split
    · exact ⟨_, _, rfl⟩
    · exact ⟨_, _, rfl⟩

/-- Between two characters that do not belong together, the clusters are those of two texts. -/
theorem clusters_append (h : joins c d = false) (cs ds : List Char) :
    clusters (cs ++ c :: d :: ds) = clusters (cs ++ [c]) ++ clusters (d :: ds) := by
  induction cs with
  | nil =>
    obtain ⟨u, us, hd⟩ := exists_clusters d ds
    rw [List.nil_append, clusters, hd]
    simp [h, clusters]
  | cons x cs ih =>
    obtain ⟨y, rest, hrest⟩ : ∃ y rest, cs ++ [c] = y :: rest :=
      List.exists_cons_of_ne_nil (by simp)
    have hsplit : cs ++ c :: d :: ds = y :: (rest ++ d :: ds) := by
      rw [← List.cons_append, ← hrest, List.append_assoc]
      rfl
    obtain ⟨u, us, hy⟩ := exists_clusters y rest
    rw [hsplit, hrest, hy] at ih
    rw [List.cons_append, List.cons_append, hsplit, hrest, clusters, clusters, hy, ih]
    dsimp only [List.cons_append]
    split <;> rfl

/-- The clusters of a text make up the text. -/
theorem flatten_clusters (cs : List Char) : (clusters cs).flatten = cs := by
  induction cs with
  | nil => rfl
  | cons c cs ih =>
    cases cs with
    | nil => rfl
    | cons d cs =>
      obtain ⟨u, us, h⟩ := exists_clusters d cs
      rw [h, List.flatten_cons] at ih
      rw [clusters, h]
      dsimp only
      split
      · rw [List.flatten_cons, List.cons_append, ih]
      · rw [List.flatten_cons, List.flatten_cons, ih]
        rfl

theorem ne_nil_of_mem_clusters {cs u : List Char} (h : u ∈ clusters cs) : u ≠ [] := by
  induction cs generalizing u with
  | nil => cases h
  | cons c cs ih =>
    cases cs with
    | nil => exact List.mem_singleton.1 h ▸ List.cons_ne_nil _ _
    | cons d cs =>
      obtain ⟨u', us, heq⟩ := exists_clusters d cs
      rw [heq] at ih
      rw [clusters, heq] at h
      dsimp only at h
      split at h
      · rcases List.mem_cons.1 h with rfl | h
        · exact List.cons_ne_nil _ _
        · exact ih (List.mem_cons_of_mem _ h)
      · rcases List.mem_cons.1 h with rfl | h
        · exact List.cons_ne_nil _ _
        · exact ih h

end

/-! ## Words -/

/-- The first word goes on with the units that were read. -/
theorem exists_wordsFrom (word us : List (List Char)) :
    ∃ w ws, wordsFrom word us = (word.reverse ++ w) :: ws := by
  fun_induction wordsFrom word us with
  | case1 word => exact ⟨[], [], by rw [List.append_nil]⟩
  | case2 word u h => exact ⟨[], [[]], by rw [List.append_nil]⟩
  | case3 word u h => exact ⟨[u], [], by rw [List.reverse_cons]⟩
  | case4 word u v after h ih => exact ⟨[], _, by rw [List.append_nil]⟩
  | case5 word u v after h hends ih => exact ⟨[u], _, by rw [List.reverse_cons]⟩
  | case6 word u v after h hends ih =>
    obtain ⟨w, ws, heq⟩ := ih
    exact ⟨u :: w, ws, by rw [heq, List.reverse_cons, List.append_assoc]; rfl⟩

/-- The units of words are those that were read and those of the text. -/
theorem mem_of_mem_wordsFrom {word us w : List (List Char)} {u : List Char}
    (hw : w ∈ wordsFrom word us) (hu : u ∈ w) : u ∈ word ∨ u ∈ us := by
  fun_induction wordsFrom word us with
  | case1 word =>
    obtain rfl := List.mem_singleton.1 hw
    exact .inl (List.mem_reverse.1 hu)
  | case2 word v h =>
    rcases List.mem_pair.1 hw with rfl | rfl
    · exact .inl (List.mem_reverse.1 hu)
    · cases hu
  | case3 word v h =>
    obtain rfl := List.mem_singleton.1 hw
    rcases List.mem_cons.1 (List.mem_reverse.1 hu) with rfl | hu
    · exact .inr (List.mem_singleton_self _)
    · exact .inl hu
  | case4 word v v' after h ih =>
    rcases List.mem_cons.1 hw with rfl | hw
    · exact .inl (List.mem_reverse.1 hu)
    · exact .inr (List.mem_cons_of_mem _ ((ih hw).resolve_left List.not_mem_nil))
  | case5 word v v' after h hends ih =>
    rcases List.mem_cons.1 hw with rfl | hw
    · rcases List.mem_cons.1 (List.mem_reverse.1 hu) with rfl | hu
      · exact .inr (List.mem_cons_self ..)
      · exact .inl hu
    · exact .inr (List.mem_cons_of_mem _ ((ih hw).resolve_left List.not_mem_nil))
  | case6 word v v' after h hends ih =>
    rcases ih hw with hu | hu
    · rcases List.mem_cons.1 hu with rfl | hu
      · exact .inr (List.mem_cons_self ..)
      · exact .inl hu
    · exact .inr (List.mem_cons_of_mem _ hu)

/-- A blank is in neither case, so no word ends in front of it but by it. -/
theorem endsBetween_blank (u : List Char) (after : List (List Char)) :
    endsBetween u [' '] after = false := by
  have hblank : isLowerUnit [' '] = false ∧ isUpperUnit [' '] = false ∧
      isDigitUnit [' '] = false := by
    decide
  simp [endsBetween, hblank]

/-- A blank is no small letter either, which decides where several capitals end. -/
theorem endsBetween_append_blank (u v : List Char) (after rest : List (List Char)) :
    endsBetween u v (after ++ [' '] :: rest) = endsBetween u v after := by
  have hblank : isLowerUnit [' '] = false := by decide
  cases after with
  | nil => simp [endsBetween, hblank]
  | cons x after => rfl

/-- A blank separates the words of two texts. -/
theorem wordsFrom_blank (word us vs : List (List Char)) :
    wordsFrom word (us ++ [' '] :: vs) = wordsFrom word us ++ wordsFrom [] vs := by
  have hblank : ∀ word, wordsFrom word ([' '] :: vs) = word.reverse :: wordsFrom [] vs := by
    cases vs <;> exact fun _ => rfl
  fun_induction wordsFrom word us with
  | case1 word => exact hblank word
  | case2 word u h =>
    rw [List.singleton_append, wordsFrom, if_pos h, hblank]
    rfl
  | case3 word u h =>
    rw [List.singleton_append, wordsFrom, if_neg h, endsBetween_blank,
      if_neg Bool.false_ne_true, hblank]
    rfl
  | case4 word u v after h ih =>
    rw [List.cons_append, List.cons_append, wordsFrom, if_pos h, ← List.cons_append, ih]
    rfl
  | case5 word u v after h hends ih =>
    rw [List.cons_append, List.cons_append, wordsFrom, if_neg h, endsBetween_append_blank,
      if_pos hends, ← List.cons_append, ih]
    rfl
  | case6 word u v after h hends ih =>
    rw [List.cons_append, List.cons_append, wordsFrom, if_neg h, endsBetween_append_blank,
      if_neg hends, ← List.cons_append, ih]

/-- A blank that is a cluster of its own separates the words of two texts. -/
theorem words_blank {cs ds : List Char} (hcs : ∀ c ∈ cs.getLast?, joins c ' ' = false)
    (hds : ∀ d ∈ ds.head?, joins ' ' d = false) :
    words (cs ++ ' ' :: ds) = words cs ++ words ds := by
  have hbehind : clusters (' ' :: ds) = [' '] :: clusters ds := by
    cases ds with
    | nil => rfl
    | cons d ds => exact clusters_append (hds d rfl) [] ds
  have hsplit : clusters (cs ++ ' ' :: ds) = clusters cs ++ [' '] :: clusters ds := by
    rcases List.eq_nil_or_concat cs with rfl | ⟨cs, c, rfl⟩
    · exact hbehind
    · rw [List.concat_eq_append] at hcs ⊢
      have hc : joins c ' ' = false := hcs c (by simp)
      rw [List.append_assoc, List.singleton_append, clusters_append hc, hbehind]
  rw [words, hsplit, wordsFrom_blank]
  rfl

/-- The last word ends with the last units, if no word ends between them. -/
theorem wordsFrom_concat {u v : List Char} (hu : isSeparator u = false) (hv : isSeparator v = false)
    (huv : endsBetween u v [] = false) (word us : List (List Char)) :
    ∃ ws w, wordsFrom word (us ++ [u, v]) = ws ++ [w ++ [u, v]] := by
  induction us generalizing word with
  | nil => exact ⟨[], word.reverse, by simp [wordsFrom, hu, hv, huv]⟩
  | cons x us ih =>
    obtain ⟨y, rest, hrest⟩ : ∃ y rest, us ++ [u, v] = y :: rest :=
      List.exists_cons_of_ne_nil (by simp)
    rw [hrest] at ih
    rw [List.cons_append, hrest, wordsFrom]
    split
    · obtain ⟨ws, w, h⟩ := ih []
      exact ⟨word.reverse :: ws, w, by rw [h]; rfl⟩
    · split
      · obtain ⟨ws, w, h⟩ := ih []
        exact ⟨(x :: word).reverse :: ws, w, by rw [h]; rfl⟩
      · exact ih (x :: word)

/-! ## Joined words -/

/-- What capitalized words start with is an upper case. -/
theorem exists_of_mem_head? {ws : List (List (List Char))} (h : ∀ w ∈ ws, ∀ u ∈ w, u ≠ [])
    {c : Char} (hc : c ∈ (ws.flatMap capitalized).head?) :
    ∃ w ∈ ws, ∃ u ∈ w, ∃ d ∈ u, c ∈ upperChar d := by
  induction ws with
  | nil => cases hc
  | cons w ws ih =>
    obtain ⟨hw, hws⟩ := List.forall_mem_cons.1 h
    cases w with
    | nil =>
      obtain ⟨w, hw, hu⟩ := ih hws hc
      exact ⟨w, List.mem_cons_of_mem _ hw, hu⟩
    | cons u w =>
      obtain ⟨d, u, rfl⟩ := List.exists_cons_of_ne_nil (hw u (List.mem_cons_self ..))
      obtain ⟨c', cs, hupper⟩ := List.exists_cons_of_ne_nil (notMem_upperChar d).2
      have hhead : c' = c := by
        simpa [capitalized, upper, hupper] using hc
      exact ⟨_, List.mem_cons_self .., _, List.mem_cons_self .., d, List.mem_cons_self ..,
        hhead ▸ hupper ▸ List.mem_cons_self ..⟩

/-- No text of capitalized words starts with a small g. -/
theorem head?_pascalCase_ne (cs : List Char) : (pascalCase cs).head? ≠ some 'g' := by
  intro hhead
  have hunits : ∀ w ∈ words cs, ∀ u ∈ w, u ≠ [] := fun w hw u hu =>
    ne_nil_of_mem_clusters ((mem_of_mem_wordsFrom hw hu).resolve_left List.not_mem_nil)
  obtain ⟨_, -, _, -, d, -, hg⟩ := exists_of_mem_head? hunits hhead
  exact (notMem_upperChar d).1 hg

section
variable {x y z : Char}

/-- A word ends with the lower case of its last character, also if it is capitalized. -/
theorem exists_capitalized_eq (hz : z ≠ capitalSigma) (w : List (List Char)) (u : List Char) :
    (∃ ds, capitalized (w ++ [u, [z]]) = ds ++ lowerChar z) ∧
      ∃ ds, uncapitalized (w ++ [u, [z]]) = ds ++ lowerChar z := by
  have hlower : ∀ w : List (List Char), ∃ ds, lower (w ++ [[z]]).flatten = ds ++ lowerChar z :=
    fun w => by
      rw [List.flatten_append]
      exact lowerAfter_append hz [] _
  constructor
  · cases w with
    | nil =>
      obtain ⟨ds, h⟩ := hlower []
      exact ⟨upper u ++ ds, by rw [List.append_assoc, ← h]; rfl⟩
    | cons a w =>
      obtain ⟨ds, h⟩ := hlower (w ++ [u])
      exact ⟨upper a ++ ds, by rw [List.append_assoc, ← h, List.append_assoc]; rfl⟩
  · obtain ⟨ds, h⟩ := hlower (w ++ [u])
    exact ⟨ds, by rw [← h, List.append_assoc]; rfl⟩

/-- Joined words start with the lower case of the first character, if it is a cluster of its own
and the one behind it belongs to its word. -/
theorem exists_camelCase_eq (hxy : joins x y = false) (hyz : joins y z = false)
    (hx : isSeparator [x] = false) (hends : ∀ after, endsBetween [x] [y] after = false)
    (hsigma : x ≠ capitalSigma) (cs : List Char) :
    ∃ ds, camelCase (x :: y :: z :: cs) = lowerChar x ++ ds := by
  obtain ⟨us, hclusters⟩ : ∃ us, clusters (x :: y :: z :: cs) = [x] :: [y] :: us := by
    refine ⟨clusters (z :: cs), ?_⟩
    rw [← List.nil_append (x :: _), clusters_append hxy, ← List.nil_append (y :: _),
      clusters_append hyz]
    rfl
  obtain ⟨w, ws, hwords⟩ := exists_wordsFrom [[x]] ([y] :: us)
  have hfirst : words (x :: y :: z :: cs) = ([x] :: w) :: ws := by
    rw [words, hclusters, wordsFrom, if_neg (by simp [hx]), if_neg (by simp [hends]), hwords]
    rfl
  refine ⟨lowerAfter [x] w.flatten ++ ws.flatMap capitalized, ?_⟩
  rw [camelCase, hfirst, ← List.append_assoc]
  refine congrArg (· ++ _) ?_
  rw [uncapitalized, List.flatten_cons, List.singleton_append, lower, lowerAfter, if_neg hsigma]

/-- Joined words end with the lower case of the last character, if it is a cluster of its own and
belongs to the word of the one in front of it. -/
theorem exists_joined_eq (hxy : joins x y = false) (hyz : joins y z = false)
    (hy : isSeparator [y] = false) (hz : isSeparator [z] = false)
    (hends : endsBetween [y] [z] [] = false) (hsigma : z ≠ capitalSigma) (cs : List Char) :
    (∃ ds, pascalCase (cs ++ [x, y, z]) = ds ++ lowerChar z) ∧
      ∃ ds, camelCase (cs ++ [x, y, z]) = ds ++ lowerChar z := by
  have hclusters : clusters (cs ++ [x, y, z]) = clusters (cs ++ [x]) ++ [[y], [z]] := by
    rw [clusters_append hxy, ← List.nil_append [y, z], clusters_append hyz]
    rfl
  obtain ⟨ws, w, hwords⟩ := wordsFrom_concat hy hz hends [] (clusters (cs ++ [x]))
  rw [← hclusters] at hwords
  obtain ⟨⟨ds, hcap⟩, es, huncap⟩ := exists_capitalized_eq hsigma w [y]
  constructor
  · refine ⟨ws.flatMap capitalized ++ ds, ?_⟩
    rw [pascalCase, words, hwords, List.flatMap_append, List.flatMap_singleton, hcap,
      List.append_assoc]
  · rw [camelCase, words, hwords]
    cases ws with
    | nil => exact ⟨es, by rw [← huncap]; exact List.append_nil _⟩
    | cons v ws =>
      refine ⟨uncapitalized v ++ (ws.flatMap capitalized ++ ds), ?_⟩
      rw [List.append_assoc, List.append_assoc, ← hcap]
      simp

end

/-! ## ASCII -/

/-- No character of ASCII continues a cluster or belongs to the one behind it. -/
theorem IsAscii.alone {c : Char} (h : IsAscii c) : isExtending c = false ∧ isPrepended c = false :=
  IsAscii.rec_ofNat (P := fun c => isExtending c = false ∧ isPrepended c = false) (by decide) h

/-- In ASCII, only the two characters of a line end belong together. -/
theorem IsAscii.of_joins {c d : Char} (hc : IsAscii c) (hd : IsAscii d) (h : joins c d = true) :
    c = '\r' ∧ d = '\n' := by
  rw [joins, hd.alone.1, hc.alone.2] at h
  split at h
  · next heq => simpa using heq
  · split at h <;> cases h

section
variable {cs : List Char}

/-- In ASCII, a cluster is a character or a line end. -/
theorem clusters_ascii (h : ∀ c ∈ cs, IsAscii c) {u : List Char} (hu : u ∈ clusters cs) :
    (∃ c, u = [c]) ∨ u = ['\r', '\n'] := by
  induction cs generalizing u with
  | nil => cases hu
  | cons c cs ih =>
    obtain ⟨hc, hcs⟩ := List.forall_mem_cons.1 h
    cases cs with
    | nil => exact .inl ⟨c, List.mem_singleton.1 hu⟩
    | cons d cs =>
      obtain ⟨hd, -⟩ := List.forall_mem_cons.1 hcs
      obtain ⟨u', us, heq⟩ := exists_clusters d cs
      rw [heq] at ih
      rw [clusters, heq] at hu
      dsimp only at hu
      split at hu
      · next hjoins =>
        rcases List.mem_cons.1 hu with rfl | hu
        · obtain ⟨rfl, rfl⟩ := hc.of_joins hd hjoins
          -- the cluster behind starts with the line feed, so it is no line end
          rcases ih hcs (List.mem_cons_self ..) with ⟨c, hfirst⟩ | hfirst
          · exact .inr (by rw [hfirst, (List.cons.inj hfirst).1])
          · cases hfirst
        · exact ih hcs (List.mem_cons_of_mem _ hu)
      · rcases List.mem_cons.1 hu with rfl | hu
        · exact .inl ⟨c, rfl⟩
        · exact ih hcs hu

/-- The characters of the words of a text are characters of the text. -/
theorem mem_of_mem_words {w : List (List Char)} (hw : w ∈ words cs) {u : List Char} (hu : u ∈ w) :
    u ∈ clusters cs ∧ ∀ c ∈ u, c ∈ cs := by
  have hmem := (mem_of_mem_wordsFrom hw hu).resolve_left List.not_mem_nil
  exact ⟨hmem, fun c hc => flatten_clusters cs ▸ List.mem_flatten_of_mem hmem hc⟩

/-- A word in ASCII, capitalized, is the word in lower case with a capital first letter. -/
theorem exists_capitalized_ascii {u : List Char} {w : List (List Char)} (hu : u ∈ clusters cs)
    (h : ∀ c ∈ cs, IsAscii c) (hw : ∀ c ∈ u ++ w.flatten, IsAscii c) :
    ∃ c rest, uncapitalized (u :: w) = c :: rest ∧
      capitalized (u :: w) = c.toUpper :: rest := by
  obtain ⟨hfirst, hrest⟩ := List.forall_mem_append.1 hw
  rw [capitalized, uncapitalized, List.flatten_cons, lower_ascii hrest, lower_ascii hw,
    upper_ascii hfirst]
  rcases clusters_ascii h hu with ⟨c, rfl⟩ | rfl
  · have hcase : c.toLower.toUpper = c.toUpper :=
      (hfirst c (List.mem_singleton_self c)).rec_ofNat
        (P := fun c => c.toLower.toUpper = c.toUpper) (by decide)
    exact ⟨_, _, rfl, by rw [hcase]; rfl⟩
  · exact ⟨_, _, rfl, rfl⟩

/-- Capitalized words in ASCII start with a capital letter, or with no letter. -/
theorem modifyHead_capitalized {ws : List (List (List Char))}
    (h : ∀ w ∈ ws, ∀ u ∈ w, u ≠ [] ∧ ∀ c ∈ u, IsAscii c) :
    (ws.flatMap capitalized).modifyHead Char.toUpper = ws.flatMap capitalized := by
  cases hws : ws.flatMap capitalized with
  | nil => rfl
  | cons c rest =>
    obtain ⟨w, hw, u, hu, d, hd, hc⟩ := exists_of_mem_head? (fun w hw u hu => (h w hw u hu).1)
      (show c ∈ (ws.flatMap capitalized).head? from hws ▸ rfl)
    have hascii : IsAscii d := (h w hw u hu).2 d hd
    rw [hascii.upperChar_eq] at hc
    obtain rfl := List.mem_singleton.1 hc
    have hcase : d.toUpper.toUpper = d.toUpper :=
      hascii.rec_ofNat (P := fun d => d.toUpper.toUpper = d.toUpper) (by decide)
    rw [List.modifyHead_cons, hcase]

/-- In ASCII, the words joined with a capital first letter are those joined with a small one, but
for this letter. -/
theorem pascalCase_ascii (h : ∀ c ∈ cs, IsAscii c) :
    pascalCase cs = (camelCase cs).modifyHead Char.toUpper := by
  obtain ⟨w, ws, hwords⟩ : ∃ w ws, words cs = w :: ws := exists_wordsFrom [] (clusters cs)
  have hunits : ∀ v ∈ w :: ws, ∀ u ∈ v, u ∈ clusters cs ∧ ∀ c ∈ u, IsAscii c := by
    intro v hv u hu
    obtain ⟨hmem, hchars⟩ := mem_of_mem_words (hwords ▸ hv) hu
    exact ⟨hmem, fun c hc => h c (hchars c hc)⟩
  obtain ⟨hw, hws⟩ := List.forall_mem_cons.1 hunits
  rw [pascalCase, camelCase, hwords, List.flatMap_cons]
  dsimp only
  cases w with
  | nil =>
    exact (modifyHead_capitalized fun v hv u hu =>
      ⟨ne_nil_of_mem_clusters (hws v hv u hu).1, (hws v hv u hu).2⟩).symm
  | cons u w =>
    obtain ⟨⟨hu, hchars⟩, hw⟩ := List.forall_mem_cons.1 hw
    have hword : ∀ c ∈ u ++ w.flatten, IsAscii c := by
      refine List.forall_mem_append.2 ⟨hchars, fun c hc => ?_⟩
      obtain ⟨v, hv, hc⟩ := List.mem_flatten.1 hc
      exact (hw v hv).2 c hc
    obtain ⟨c, rest, hlower, hupper⟩ := exists_capitalized_ascii hu h hword
    rw [hlower, hupper]
    rfl

end

end EntityModel.Text
